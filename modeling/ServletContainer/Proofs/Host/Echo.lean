import ServletContainer.Proofs.Host.Asked
import ServletContainer.Proofs.Http.HeadTexts
import ServletContainer.Proofs.Response.Answers
import ServletContainer.Proofs.Response.Values

namespace ServletContainer

/-!
# Echoes

An application sends back what it was sent. No text that it gets of a request has a line end, and so none of them adds a
line to the head of the response.

* `RequestHead.Yields` — the texts that are read off a head, and what they are taken apart into.
* `RequestHead.KeepsToLines.staysOnLine` — none of them has a line end if none of the head has one.
* `RequestHead.Shows`, `Host.Brings.shows` — the components in front of a servlet get such texts only.
* `Echoes` — texts that are made of them and of others without line ends.
* `Response.exists_cutHead_of_calls` — the head of a response that is made of texts without line ends.
* `Source.Supplies`, `staysOnLine_of_readHead` — hence for every input, of heads as well as of lines that could not be read.
-/

/-! ### Texts read off a head -/

namespace RequestHead

/-- The texts that are read off `head`: its words and fields, the parts of its target and of its paths, whatever the
context path and the mappings, the values of its cookies, and the session that it asks for. -/
inductive Yields (head : RequestHead) : String → Prop
  | method {m : Method} : head.method = some m → Yields head m.token
  | target : Yields head head.target
  | protocol : Yields head head.protocol
  | fieldName {f : HeaderField} : f ∈ head.headers.fields → Yields head f.name
  | fieldValue {f : HeaderField} : f ∈ head.headers.fields → Yields head f.value
  | path : Yields head (Request.splitTarget head.target).1
  | query {query : String} : (Request.splitTarget head.target).2 = some query → Yields head query
  | plainPath {path : String} : Yields head path → Yields head (stripPathParameters path).1
  | parameterName {path : String} {p : String × String} : Yields head path → p ∈ (stripPathParameters path).2 →
    Yields head p.1
  | parameterValue {path : String} {p : String × String} : Yields head path → p ∈ (stripPathParameters path).2 →
    Yields head p.2
  | relativePath {r : Request} : Yields head r.uri → Yields head r.relativePath
  | servletPath {t : MappingTable} {path : String} {m : MappingMatch} : Yields head path → t.map? path = some m →
    Yields head m.servletPath
  | pathInfo {t : MappingTable} {path info : String} {m : MappingMatch} : Yields head path → t.map? path = some m →
    m.pathInfo = some info → Yields head info
  | cookie {name value : String} : cookieValue? head.headers name = some value → Yields head value
  | session {config : SessionConfig} {path id : String} {source : SessionIdSource} : Yields head path →
    requestedSession? config head.headers (stripPathParameters path).2 = some (id, source) → Yields head id

end RequestHead

/-! ### Parts of texts without line ends -/

section Parts

variable {path : String}

/-- `splitTarget` cuts a text in two at most. -/
theorem staysOnLine_splitTarget (h : StaysOnLine path) : StaysOnLine (Request.splitTarget path).1 ∧
    ∀ query, (Request.splitTarget path).2 = some query → StaysOnLine query := by
  unfold Request.splitTarget
  split
  · next a b hcut =>
    obtain ⟨ha, hb⟩ := Text.cut_subset hcut
    exact ⟨h.mono ha, fun query hquery => Option.some.inj hquery ▸ h.mono hb⟩
  · exact ⟨h, nofun⟩

/-- `stripPathParameters` puts the segments together with nothing but slashes between them. -/
theorem staysOnLine_plainPath (h : StaysOnLine path) : StaysOnLine (stripPathParameters path).1 := by
  have hparts : ∀ d, d ≠ '/' → d ∉ path.toList → d ∉ (stripPathParameters path).1.toList := by
    intro d hd hpath
    rw [stripPathParameters_eq, String.toList_ofList]
    refine Text.not_mem_joinFields hd fun segment hsegment hmem => ?_
    obtain ⟨s, hs, rfl⟩ := List.mem_map.1 hsegment
    exact hpath (Text.mem_of_mem_fields hs ((List.takeWhile_prefix _).subset hmem))
  exact ⟨hparts _ (by decide) h.1, hparts _ (by decide) h.2⟩

/-- The parameters that it takes off are parts of the path too. -/
theorem staysOnLine_parameter (h : StaysOnLine path) {p : String × String} (hp : p ∈ (stripPathParameters path).2) :
    StaysOnLine p.1 ∧ StaysOnLine p.2 := by
  obtain ⟨last, hlast⟩ := IsLastSegment.exists_last path
  rw [hlast.parameters_eq] at hp
  obtain ⟨piece, hpiece, hread⟩ := List.mem_filterMap.1 hp
  have hsegment : StaysOnLine last := by
    obtain ⟨-, rfl | ⟨front, rfl⟩⟩ := hlast
    · exact h
    · exact (staysOnLine_append_iff.1 h).2
  have hline : StaysOnLine piece := hsegment.mono (Text.pieces_subset (List.mem_of_mem_tail hpiece))
  obtain ⟨-, rfl | ⟨rfl, -, hempty⟩⟩ := parameter?_eq_some_iff.1 hread
  · exact ⟨(staysOnLine_append_iff.1 (staysOnLine_append_iff.1 hline).1).1, (staysOnLine_append_iff.1 hline).2⟩
  · exact ⟨hline, hempty ▸ (by decide)⟩

/-- The relative path is the end of the URI, or a slash. -/
theorem staysOnLine_relativePath {r : Request} (h : StaysOnLine r.uri) : StaysOnLine r.relativePath := by
  unfold Request.relativePath
  cases hafter : Text.after? r.contextPath r.uri with
  | none => exact h
  | some rest => exact h.mono (Text.after?_subset hafter)

/-- A match divides the path that was mapped, wherever the pattern comes from. -/
theorem staysOnLine_of_map? (h : StaysOnLine path) {t : MappingTable} {m : MappingMatch} (hm : t.map? path = some m) :
    StaysOnLine m.servletPath ∧ ∀ info, m.pathInfo = some info → StaysOnLine info := by
  have hrooted : StaysOnLine (MappingTable.rooted path) := by
    unfold MappingTable.rooted
    split
    · decide
    · exact h
  rw [← (MappingTable.isFor_of_map? hm).path_eq, MappingMatch.path, staysOnLine_append_iff] at hrooted
  refine ⟨hrooted.1, fun info hinfo => ?_⟩
  have hrest := hrooted.2
  rwa [hinfo, Option.getD_some] at hrest

/-- A cookie is part of a field. -/
theorem staysOnLine_cookieValue? {h : Headers} (hfields : ∀ f ∈ h.fields, f.KeepsToLine) {name value : String}
    (hvalue : cookieValue? h name = some value) : StaysOnLine value := by
  obtain ⟨p, hfound, rfl⟩ := Option.map_eq_some_iff.1 hvalue
  obtain ⟨piece, hpiece, hpair⟩ := List.mem_filterMap.1 (List.mem_of_find?_eq_some hfound)
  obtain ⟨v, hv, hpiece⟩ := List.mem_flatMap.1 hpiece
  obtain ⟨f, hf, rfl⟩ := List.mem_map.1 hv
  have hline : StaysOnLine f.value := (hfields f (List.mem_filter.1 hf).1).value
  -- From the field to its piece `p`, from there to the raw value, which is trimmed twice.
  refine hline.mono ?_
  calc (Text.trimMark '"' (Text.trim p.2)).toList
      ⊆ (Text.trim p.2).toList := Text.trimMark_subset _ _
    _ ⊆ p.2.toList := Text.trim_subset _
    _ ⊆ (Text.trim piece).toList := (Text.cut_subset hpair).2
    _ ⊆ piece.toList := Text.trim_subset _
    _ ⊆ f.value.toList := Text.pieces_subset hpiece

end Parts

namespace RequestHead

variable {head : RequestHead}

/-- So what a head `Yields` has no line end if the head `KeepsToLines`, by induction on the way it is read. -/
theorem KeepsToLines.staysOnLine (h : head.KeepsToLines) {s : String} (hs : head.Yields s) : StaysOnLine s := by
  -- By induction on `Yields`: every way of taking texts apart brings no line end in.
  induction hs with
  | method hm => exact h.method _ hm
  | target => exact h.target
  | protocol => exact h.protocol
  | fieldName hf => exact (h.fields _ hf).name
  | fieldValue hf => exact (h.fields _ hf).value
  | path => exact (staysOnLine_splitTarget h.target).1
  | query hquery => exact (staysOnLine_splitTarget h.target).2 _ hquery
  | plainPath _ ih => exact staysOnLine_plainPath ih
  | parameterName _ hp ih => exact (staysOnLine_parameter ih hp).1
  | parameterValue _ hp ih => exact (staysOnLine_parameter ih hp).2
  | relativePath _ ih => exact staysOnLine_relativePath ih
  | servletPath _ hm ih => exact (staysOnLine_of_map? ih hm).1
  | pathInfo _ hm hinfo ih => exact (staysOnLine_of_map? ih hm).2 _ hinfo
  | cookie hvalue => exact staysOnLine_cookieValue? h.fields hvalue
  | session _ hasked ih =>
    rcases Option.or_eq_some_iff.1 hasked with hcookie | ⟨-, hurl⟩
    · obtain ⟨id, hid, heq⟩ := Option.map_eq_some_iff.1 hcookie
      obtain ⟨rfl, -⟩ := Prod.mk.inj heq
      exact staysOnLine_cookieValue? h.fields (Option.ite_none_right_eq_some.1 hid).2
    · obtain ⟨p, hp, heq⟩ := Option.map_eq_some_iff.1 hurl
      obtain ⟨rfl, -⟩ := Prod.mk.inj heq
      exact (staysOnLine_parameter ih (List.mem_of_find?_eq_some (Option.ite_none_right_eq_some.1 hp).2)).2

/-! ### What components get -/

/-- Whether the texts of `r` are read off `head`, as `Yields` says. -/
structure Shows (head : RequestHead) (r : Request) : Prop where
  uri : head.Yields r.uri
  query : ∀ query, r.query = some query → head.Yields query
  relativePath : head.Yields r.relativePath
  servletPath : head.Yields r.servletPath
  pathInfo : ∀ info, r.pathInfo = some info → head.Yields info
  session : ∀ id source, r.requestedSession = some (id, source) → head.Yields id

end RequestHead

/-- A guard that `WorksByCalls` keeps the origin of the request. -/
theorem Application.Allows.sameOrigin {a : Application} {x y : Exchange}
    (hguard : ∀ guard, a.guard = some guard → guard.WorksByCalls) (h : a.Allows x y) : SameOrigin x y := by
  unfold Allows at h
  split at h
  · rw [h]
    exact .refl x
  · next guard hsome => exact ((hguard guard hsome).check h).sameOrigin

/-- The components in front of the servlet that a request is brought to, and the servlet, get a request that the head
`Shows`: each text of it was read off the head, whole or in part. -/
theorem Host.Brings.shows {h : Host} {x y : Exchange} {id : AppId} {d : Deployment} {place : Place}
    (hb : h.Brings x id d place y) (hfresh : x.request.IsFresh) (hguards : h.GuardsByCalls) {depth : Nat}
    {servlet : Servlet} {i : Invocation}
    (hi : Invocation.LeadsTo d.app (Invocation.first d.app place depth servlet y) i) (hplace : i.place = place) :
    x.request.head.Shows i.exchange.request := by
  have hguard : ∀ guard, d.app.guard = some guard → guard.WorksByCalls := fun guard hsome => hguards hb.deployment hsome
  obtain ⟨z, hallows, htop⟩ := hb.dispatched
  have hbefore := hallows.samePaths hguard
  have hasked := (hallows.sameOrigin hguard).requested
  have hchainAsked := (SameOrigin.of_leadsTo hi).requested
  -- `hfresh.target`: path and query as they came.
  have htarget := splitTarget_eq_iff.2 hfresh.target
  have hpath : x.request.head.Yields x.request.uri := by
    have hyields : x.request.head.Yields (Request.splitTarget x.request.head.target).1 := .path
    rwa [htarget] at hyields
  have hquery : ∀ query, x.request.query = some query → x.request.head.Yields query := fun query hsome =>
    .query (by rw [htarget, hsome])
  have huri : x.request.head.Yields z.request.uri := hbefore.uri ▸ hpath.plainPath
  have hkind := hb.kind
  cases htop with
  | @request target hmapped =>
    have hchain := Invocation.samePaths_of_leadsTo hi hplace
    have hservlet : i.exchange.request.servletPath = target.servletPath :=
      congrArg Request.PathState.servletPath hchain.paths
    have hinfo : i.exchange.request.pathInfo = target.pathInfo := congrArg Request.PathState.pathInfo hchain.paths
    -- `hchain.uri` and the query, then what the match divides, then the session.
    refine ⟨hchain.uri ▸ huri, fun query hsome => hquery query ?_, ?_, ?_, fun info hsome => ?_,
      fun id source hsome => ?_⟩
    · exact hbefore.query.symm.trans (hchain.query.symm.trans hsome)
    · rw [hchain.relativePath]
      exact huri.relativePath
    · rw [hservlet]
      exact huri.relativePath.servletPath hmapped
    · exact huri.relativePath.pathInfo hmapped (hinfo.symm.trans hsome)
    · exact hpath.session (hasked.symm.trans (hchainAsked.symm.trans hsome))
  | async | error => cases hkind

/-! ### Texts sent back -/

/-- Texts that are put together from those that are `supplied` and from others without line ends. -/
inductive Echoes (supplied : String → Prop) : String → Prop
  | supplied {s : String} : supplied s → Echoes supplied s
  | own {s : String} : StaysOnLine s → Echoes supplied s
  | append {s t : String} : Echoes supplied s → Echoes supplied t → Echoes supplied (s ++ t)

/-- What `Echoes` texts without line ends has none. -/
theorem Echoes.staysOnLine {supplied : String → Prop} (hsupplied : ∀ s, supplied s → StaysOnLine s) {s : String}
    (h : Echoes supplied s) : StaysOnLine s := by
  induction h with
  | supplied hs => exact hsupplied _ hs
  | own hs => exact hs
  | append _ _ ihs iht => exact ihs.append iht

namespace Response

open Text.Utf8 (encode)

/-- No call changes the protocol. -/
theorem protocol_apply (r : Response) (c : Call) : (r.apply c).protocol = r.protocol := by
  have hchanges := changesHead_apply r c
  generalize r.apply c = r' at hchanges
  cases hchanges with
  | completes _ hs =>
    rw [hs.protocol]
    by_cases hn : r.state = .new
    · rw [writeHeaders_of_new hn]
      exact (sameHead_writeStatusLine r).protocol
    · rw [writeHeaders_of_ne_new hn]
  | keeps hs => exact hs.protocol
  | status | reason | add | set => rfl

/-- So it is the same at all moments. -/
theorem protocol_of_mem_moments {r : Response} {calls : List Call} {m : Moment} (hm : m ∈ r.moments calls) :
    m.before.protocol = r.protocol :=
  have hstep : ∀ (s : Response) (c : Call), s.protocol = r.protocol → True → (s.apply c).protocol = r.protocol :=
    fun s c hs _ => (protocol_apply s c).trans hs
  (@invariant_run (fun s => s.protocol = r.protocol) (fun _ => True) hstep r rfl calls fun _ _ => trivial).2 m hm

/-- A head that is complete behind `calls` whose texts have no line end is cut by `cutHead` into the status line, which
starts with the protocol, and a line for each name that the response has a field of. -/
theorem exists_cutHead_of_calls {protocol : String} (hprotocol : StaysOnLine protocol) (failsShutdown : Bool)
    {calls : List Call} (hcalls : ∀ c ∈ calls, ∀ s ∈ c.texts, StaysOnLine s) :
    let start := connected protocol (.fresh .unlimited failsShutdown)
    let r := start.run calls
    r.state ≠ .new → ∃ rest body, cutHead (r.wire ++ r.head ++ r.body)
      = some (encode (start.protocol ++ " " ++ rest)
          :: r.headers.names.map fun n => encode (n ++ ": " ++ (r.headers.joined? n).getD ""), body) := by
  intro start r hne
  -- The status line may have been due at an earlier call than the last, and so `hmoments` is asked of all moments.
  obtain ⟨hend, hmoments⟩ := (keepsToLines_connected hprotocol (.fresh .unlimited failsShutdown)).run hcalls
  obtain ⟨m, hm, hbytes⟩ := exists_bytes_of_run protocol failsShutdown calls hne
  obtain ⟨rest, hrest⟩ : ∃ rest, m.before.statusText = start.protocol ++ " " ++ rest := by
    rw [← protocol_of_mem_moments hm, statusText]
    cases m.before.reasonPhrase? with
    | none => exact ⟨_, rfl⟩
    | some phrase => exact ⟨toString m.before.status ++ (" " ++ phrase), by simp only [String.append_assoc]⟩
  have hlines : encode r.headers.text ++ encode "\r\n" = encode (linesOf r.headers.folded.fields) := by
    rw [Headers.text_eq_join_folded, linesOf, Text.Utf8.encode_append]
  have hcut := (cutHead_head_iff m.before.encode_statusText_ne_nil (transcript (start.moments calls)).body).2
    ⟨(hmoments m hm).staysOnLine_statusText, r.headers.keepsToLine_folded_iff.2 hend.fields⟩
  refine ⟨rest, (transcript (start.moments calls)).body, ?_⟩
  rw [hbytes, m.before.statusLine_eq, List.append_assoc _ _ (encode "\r\n"), hlines, List.append_assoc, hcut, hrest,
    Headers.folded, List.map_map]
  rfl

end Response

/-! ### Texts of an input -/

/-- The texts that `source` supplies: those that its head `Yields`, or else the line that could not be read. -/
inductive Source.Supplies (limit : Nat) (source : Source) : String → Prop
  | head {head : RequestHead} {s : String} : (readHead limit source).1 = .ok head → head.Yields s →
    Supplies limit source s
  | line {line : String} : (readHead limit source).1 = .error (.invalidHeader line) → Supplies limit source line

/-- **Echoes add no line.** Whatever bytes come in, whatever the `limit` for a line, and however the input ends:

* no text that the source `Supplies` has a line end;
* the components in front of the servlet that the request is brought to, and the servlet, get a request of such texts,
  as the head `Shows` it, and the response has the protocol of the request;
* an application that puts the head of a response together from such texts, and from others without line ends
  (`Echoes`), in any order of calls and redirects, gets a head that `cutHead` cuts into the status line, which starts
  with the protocol, and one line for each name that the response has a field of. -/
theorem staysOnLine_of_readHead (limit : Nat) (source : Source) :
    (∀ s, source.Supplies limit s → StaysOnLine s) ∧
    (∀ head, (readHead limit source).1 = .ok head →
      (head.method ≠ none → (Response.detached head.protocol).protocol = head.protocol) ∧
      ∀ (h : Host) x id d place y, x.request.IsFresh → x.request.head = head → h.GuardsByCalls →
        h.Brings x id d place y → ∀ depth servlet i,
        Invocation.LeadsTo d.app (Invocation.first d.app place depth servlet y) i → i.place = place →
        head.Shows i.exchange.request) ∧
    ∀ (x : Exchange) (protocol : String) (failsShutdown : Bool) (moves : List Exchange.Move),
      Echoes (source.Supplies limit) protocol → (∀ m ∈ moves, ∀ s ∈ m.texts, Echoes (source.Supplies limit) s) →
      let start := Response.connected protocol (.fresh .unlimited failsShutdown)
      let r := ({ x with response := start }.makeAll moves).response
      r.state ≠ .new → ∃ rest body, cutHead (r.wire ++ r.head ++ r.body)
        = some (Text.Utf8.encode (start.protocol ++ " " ++ rest)
            :: r.headers.names.map fun n => Text.Utf8.encode (n ++ ": " ++ (r.headers.joined? n).getD ""), body) := by
  have hread := readsInto_readHead limit source
  have hsupplied : ∀ s, source.Supplies limit s → StaysOnLine s := by
    intro s hs
    cases hs with
    | head hhead hyields => exact (hread.value _ hhead).staysOnLine hyields
    | line hline => exact hread.line _ hline
  refine ⟨hsupplied, fun head hhead => ⟨fun hmethod => ?_, ?_⟩, ?_⟩
  · -- By `isProper_of_readHead` only `.blank` has no protocol, and it has no method.
    rcases isProper_of_readHead hhead with rfl | ⟨-, hprotocol⟩
    · exact absurd rfl hmethod
    · exact Response.protocol_detached hprotocol
  · rintro h x id d place y hfresh rfl hguards hbrings depth servlet i hi hplace
    exact hbrings.shows hfresh hguards hi hplace
  · intro x protocol failsShutdown moves hprotocol htexts start r hne
    -- `callsOf` turns redirects into calls with the name `Location` beside the given text.
    have hlines : ∀ m ∈ moves, ∀ s ∈ m.texts, StaysOnLine s := fun m hm s hs => (htexts m hm s hs).staysOnLine hsupplied
    have hcalls : r = start.run (start.callsOf moves) := Exchange.response_makeAll _ moves
    rw [hcalls] at hne ⊢
    exact Response.exists_cutHead_of_calls (hprotocol.staysOnLine hsupplied) failsShutdown
      (fun c hc => Response.staysOnLine_of_mem_callsOf hlines hc) hne

namespace Host.Market

/-- A request with carriage returns in its words, in a name and in values, of which one ends in a byte that is no text. -/
def stray : Source where
  unread := Text.Utf8.encode
    "G\rET /mar\rket;v=1/goods//ap\rples;jsessionid=\rA?x\r=1 HTTP/1.1\r\n\rCook\rie: SID=\"b\rc\"\r\nX-Note:\r a\r"
    ++ [255, 13, 10, 13, 10]
  ending := .silent

/-- The head that `readHead` reads of `stray`. -/
def strayHead : RequestHead where
  method := some .get
  target := "/market;v=1/goods//apples;jsessionid=A?x=1"
  protocol := "HTTP/1.1"
  headers := ⟨[⟨"Cookie", "SID=\"bc\""⟩, ⟨"X-Note", "a\uFFFD"⟩]⟩

/-- The exchange of the request `strayHead`. -/
def strayed : Exchange :=
  .start ((Request.ofHead strayHead).fromPeer "10.0.0.1" false) none (.connected "HTTP/1.1" (.fresh .unlimited false)) 0 []

/-- An application that sends back its target, a cookie and the session that it was asked for, and the method as reason. -/
def strayEchoes : List Exchange.Move := [
  .redirect strayHead.target,
  .call (.setStatusWithReason 200 "GET"),
  .call (.setHeader "X-Note" "a\uFFFD"),
  .call (.addHeader "x-note" ("sid is " ++ "bc")),
  .call (.addHeader "X-Asked" "A"),
  .call .flush]

/-- Nothing is left of the carriage returns of `stray`: not in the head, nor in what the servlet gets, nor in what it
sends back. A line that cannot be read is told without them too. -/
theorem staysOnLine_of_readHead_stray :
    let r := (strayed.makeAll strayEchoes).response
    (readHead 64 stray).1 = .ok strayHead ∧
    (∃ place y, host.Brings strayed 0 shop place y ∧ strayHead.Shows y.request) ∧
    r.state ≠ .new ∧
    (∃ rest body, cutHead (r.wire ++ r.head ++ r.body)
      = some (Text.Utf8.encode ("HTTP/1.1" ++ " " ++ rest)
          :: ["Location: /market;v=1/goods//apples;jsessionid=A?x=1", "X-Note: a\uFFFD,sid is bc", "X-Asked: A",
              "Connection: close"].map Text.Utf8.encode, body)) ∧
    StaysOnLine "No Field" := by
  intro r
  have hread : (readHead 64 stray).1 = .ok strayHead := by decide +kernel
  obtain ⟨-, hhead, hechoes⟩ := staysOnLine_of_readHead 64 stray
  have hne : r.state ≠ .new := by decide +kernel
  refine ⟨hread, ?_, hne, ?_, ?_⟩
  · have hrelative : (shop.receive strayed).request.relativePath = "/goods//apples" := by decide +kernel
    have hallows : shop.app.Allows (shop.receive strayed)
        ((shop.receive strayed).log (.noted (.told "check" (.text "/goods//apples")))) := by
      rw [← hrelative]
      exact rfl
    have hmapped : app.mapper.map? (shop.receive strayed).request.relativePath = some target := by decide +kernel
    have hbrings : host.Brings strayed 0 shop _ _ :=
      ⟨by decide +kernel, by decide +kernel, rfl, by decide +kernel, ⟨_, hallows, .request hmapped⟩, rfl⟩
    have hfresh := (Request.isFresh_ofHead strayHead).fromPeer "10.0.0.1" false
    have hshows := (hhead strayHead hread).2 host strayed 0 shop _ _ hfresh rfl guardsByCalls_host hbrings 0
      ⟨"goods", .finish, fun _ => none, false⟩ _ .refl rfl
    exact ⟨_, _, hbrings, hshows⟩
  · -- Each text that is sent back, by the constructor of `Yields` that tells where it was read.
    have hback : ∀ {s}, strayHead.Yields s → Echoes (stray.Supplies 64) s := fun h => .supplied (.head hread h)
    have htarget : Echoes (stray.Supplies 64) strayHead.target := hback .target
    have hmethod : Echoes (stray.Supplies 64) "GET" := hback (.method (m := .get) rfl)
    have hnote : Echoes (stray.Supplies 64) "a\uFFFD" := hback (.fieldValue (f := ⟨"X-Note", "a\uFFFD"⟩) (by decide))
    have hsent : cookieValue? strayHead.headers "SID" = some "bc" := by decide +kernel
    have hcookie : Echoes (stray.Supplies 64) "bc" := hback (.cookie hsent)
    have hsid : Echoes (stray.Supplies 64) ("sid is " ++ "bc") := .append (.own (by decide)) hcookie
    have hrequested : requestedSession? app.sessionConfig strayHead.headers
        (stripPathParameters (Request.splitTarget strayHead.target).1).2 = some ("A", .url) := by decide +kernel
    have hasked : Echoes (stray.Supplies 64) "A" := hback (.session .path hrequested)
    have hnames : ∀ s ∈ ["X-Note", "x-note", "X-Asked"], StaysOnLine s := by decide
    have hown : ∀ s ∈ ["X-Note", "x-note", "X-Asked"], Echoes (stray.Supplies 64) s := fun s hs => .own (hnames s hs)
    have htexts : ∀ m ∈ strayEchoes, ∀ s ∈ m.texts, Echoes (stray.Supplies 64) s := by
      simp [-String.reduceAppend, strayEchoes, Exchange.Move.texts, Response.Call.texts, htarget, hmethod, hnote, hsid,
        hasked, hown]
    obtain ⟨rest, body, hcut⟩ := hechoes strayed "HTTP/1.1" false strayEchoes (hback .protocol) htexts hne
    refine ⟨rest, body, hcut.trans ?_⟩
    have hlines : r.headers.names.map (fun n => Text.Utf8.encode (n ++ ": " ++ (r.headers.joined? n).getD ""))
        = ["Location: /market;v=1/goods//apples;jsessionid=A?x=1", "X-Note: a\uFFFD,sid is bc", "X-Asked: A",
            "Connection: close"].map Text.Utf8.encode := by decide +kernel
    rw [← hlines]
    rfl
  · have hline : (readHead 64 ⟨Text.Utf8.encode "GET / HTTP/1.1\r\nNo\r Field\r\n", .closed⟩).1
        = .error (.invalidHeader "No Field") := by decide +kernel
    exact (staysOnLine_of_readHead 64 _).1 _ (.line hline)

end Host.Market

end ServletContainer
