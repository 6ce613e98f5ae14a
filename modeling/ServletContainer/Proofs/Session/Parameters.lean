import ServletContainer.Proofs.Host.Lookup
import ServletContainer.Http.Request
import ServletContainer.Proofs.Text.Pieces
import ServletContainer.Session.PathParameters

namespace ServletContainer

/-!
# Parameters of a path

A parameter is put behind the last segment of the path of a URL. The path without parameters stays as it is, and the
parameter comes after those that were there.

* `cleanPath`, `lastParameters` — the two parts that a path is stripped into, and what they are of a path that is put
  together.
* `stripPathParameters_append` — one more parameter.
* `urlPath` — the path of a URL; `stripPathParameters_encodeUrl` is what a parameter that is put in does to it.
* `claims_of_leadsInto` — a URL that leads into a context path still does so without its parameters.
-/

/-! ### Stripping a path -/

/-- The text `path` without the parameters of its segments. -/
def cleanPath (path : List Char) : List Char := Text.joinFields '/' ((Text.fields '/' path).map cleanSegment)

/-- The parameters of the last segment of `path`. -/
def lastParameters (path : List Char) : List (String × String) :=
  segmentParameters ((Text.fields '/' path).getLastD [])

/-- `stripPathParameters` gives the clean path and the parameters of the last segment. -/
theorem stripPathParameters_eq (path : String) :
    stripPathParameters path = (String.ofList (cleanPath path.toList), lastParameters path.toList) := rfl

/-- What stands behind the first semicolon of a segment is stripped. -/
theorem cleanSegment_append (segment params : List Char) :
    cleanSegment (segment ++ ';' :: params) = cleanSegment segment := by
  induction segment with
  | nil => rfl
  | cons d r ih =>
    simp only [cleanSegment, List.cons_append, List.takeWhile_cons] at ih ⊢
    rw [ih]

/-- Segments are cleaned one by one. -/
theorem cleanPath_append_slash (a b : List Char) : cleanPath (a ++ '/' :: b) = cleanPath a ++ '/' :: cleanPath b := by
  rw [cleanPath, Text.fields_append_cons, List.map_append, Text.joinFields_append]
  · rfl
  · simpa using Text.fields_ne_nil '/' a
  · simpa using Text.fields_ne_nil '/' b

/-- Parameters behind a path, without slashes (`hslash`), are stripped with those of its last segment. -/
theorem cleanPath_append_parameters {params : List Char} (hslash : '/' ∉ params) (path : List Char) :
    cleanPath (path ++ ';' :: params) = cleanPath path := by
  obtain ⟨init, last, hpath, hjoin⟩ :=
    Text.exists_fields_append_of_not_mem (c := '/') (t := ';' :: params) (by simpa using hslash) path
  rw [cleanPath, cleanPath, hjoin, hpath]
  simp only [List.map_append, List.map_cons, List.map_nil, cleanSegment_append]

/-- A segment without semicolons (`h`) is clean. -/
theorem cleanSegment_of_not_mem {segment : List Char} (h : ';' ∉ segment) : cleanSegment segment = segment :=
  List.takeWhile_eq_self_iff.2 fun _ hc => decide_eq_true fun hmark => h (hmark ▸ hc)

/-- A path without semicolons (`h`) is clean. -/
theorem cleanPath_of_not_mem {path : List Char} (h : ';' ∉ path) : cleanPath path = path := by
  have hsegments : ∀ segment ∈ Text.fields '/' path, cleanSegment segment = segment :=
    fun segment hsegment => cleanSegment_of_not_mem fun hmark => h (Text.mem_of_mem_fields hsegment hmark)
  rw [cleanPath, List.map_congr_left hsegments, List.map_id', Text.joinFields_fields]

theorem not_mem_cleanSegment (segment : List Char) : ';' ∉ cleanSegment segment := by
  intro hmark
  simpa using List.mem_takeWhile_imp hmark

/-- Without its parameters a path has no semicolon. -/
theorem not_mem_stripPathParameters (path : String) : ';' ∉ (stripPathParameters path).1.toList := by
  rw [stripPathParameters_eq, String.toList_ofList]
  refine Text.not_mem_joinFields (by decide) fun segment hsegment => ?_
  obtain ⟨s, -, rfl⟩ := List.mem_map.1 hsegment
  exact not_mem_cleanSegment s

/-- One more parameter of the last segment comes last, if it has neither slashes nor semicolons (`hslash`, `hmark`). -/
theorem lastParameters_append {param : List Char} (hslash : '/' ∉ param) (hmark : ';' ∉ param) (hne : param ≠ [])
    (path : List Char) : lastParameters (path ++ ';' :: param) = lastParameters path ++ [parameterOf param] := by
  obtain ⟨init, last, hpath, hjoin⟩ :=
    Text.exists_fields_append_of_not_mem (c := '/') (t := ';' :: param) (by simpa using hslash) path
  obtain ⟨f, fs, hfields⟩ := List.exists_cons_of_ne_nil (Text.fields_ne_nil ';' last)
  rw [lastParameters, lastParameters, hjoin, hpath, List.getLastD_concat, List.getLastD_concat, segmentParameters,
    segmentParameters, Text.fields_append_cons, Text.fields_of_not_mem hmark, hfields]
  simp [hne]

/-- A parameter that is put behind a path comes last among those of the last segment, and is stripped with them. -/
theorem stripPathParameters_append {name value : String} (hname : Avoids ['/', ';', '='] name)
    (hvalue : Avoids ['/', ';'] value) (path : String) : stripPathParameters (path ++ ";" ++ name ++ "=" ++ value)
      = ((stripPathParameters path).1, (stripPathParameters path).2 ++ [(name, value)]) := by
  let param : List Char := name.toList ++ '=' :: value.toList
  have htext : (path ++ ";" ++ name ++ "=" ++ value).toList = path.toList ++ ';' :: param := by simp [param]
  have hslash : '/' ∉ param := by simp [param, hname.not_mem (c := '/'), hvalue.not_mem (c := '/')]
  have hmark : ';' ∉ param := by simp [param, hname.not_mem (c := ';'), hvalue.not_mem (c := ';')]
  have hparam : parameterOf param = (name, value) := by
    rw [parameterOf, Text.splitOnce_eq_some_iff.2 ⟨rfl, hname.not_mem (by simp)⟩]
    simp
  rw [stripPathParameters_eq, stripPathParameters_eq, htext, cleanPath_append_parameters hslash,
    lastParameters_append hslash hmark (by simp [param]), hparam]

/-! ### URLs -/

/-- The path of `url`, in front of query and fragment. -/
def urlPath (url : String) : String := String.ofList (url.toList.takeWhile fun c => !endsPath c)

/-- The text `url` as it is asked for, without its fragment. -/
def dropFragment (url : String) : String := String.ofList (url.toList.takeWhile (· ≠ '#'))

/-- The path of a target goes to the first question mark. -/
theorem Request.splitTarget_fst (target : String) :
    (splitTarget target).1 = String.ofList (target.toList.takeWhile (· ≠ '?')) := by
  rw [splitTarget, Text.cut, Text.splitOnce_eq]
  by_cases hmark : '?' ∈ target.toList
  · rw [if_pos hmark]
    rfl
  · have hall : target.toList.takeWhile (· ≠ '?') = target.toList :=
      List.takeWhile_eq_self_iff.2 fun c hc => decide_eq_true fun heq => hmark (heq ▸ hc)
    rw [if_neg hmark, hall, String.ofList_toList]
    rfl

/-- So the path that a request for a URL has goes to the first question mark or hash, as `urlPath` does. -/
theorem splitTarget_dropFragment (url : String) : (Request.splitTarget (dropFragment url)).1 = urlPath url := by
  rw [Request.splitTarget_fst, dropFragment, String.toList_ofList, List.takeWhile_takeWhile, urlPath]
  congr 2
  funext c
  simp [endsPath]

/-- `encodeUrl` puts its parameter at the end of the path, for nothing in it ends the path (`hparam`, `hid`). -/
theorem urlPath_encodeUrl {param id : String} (hparam : Avoids ['?', '#'] param) (hid : Avoids ['?', '#'] id)
    (url : String) : urlPath (encodeUrl url param id) = urlPath url ++ ";" ++ param ++ "=" ++ id := by
  have havoids {s : String} (hs : Avoids ['?', '#'] s) {c : Char} (hc : c ∈ s.toList) : endsPath c = false := by
    simpa [endsPath] using hs c hc
  -- `encodeUrl` puts the parameter before the first mark that `endsPath`, and the parameter holds none itself.
  let path : List Char := url.toList.takeWhile fun c => !endsPath c
  let rest : List Char := url.toList.dropWhile fun c => !endsPath c
  have htext : (encodeUrl url param id).toList = (urlPath url ++ ";" ++ param ++ "=" ++ id).toList ++ rest := by
    simp [encodeUrl, urlPath, rest]
  have hbefore : ∀ c ∈ (urlPath url ++ ";" ++ param ++ "=" ++ id).toList, (!endsPath c) = true := by
    intro c hc
    simp only [String.toList_append, List.mem_append] at hc
    rcases hc with (((hc | hc) | hc) | hc) | hc
    · rw [urlPath, String.toList_ofList] at hc
      exact List.mem_takeWhile_imp (p := fun c => !endsPath c) hc
    · obtain rfl := List.mem_singleton.1 hc
      rfl
    · simp [havoids hparam hc]
    · obtain rfl := List.mem_singleton.1 hc
      rfl
    · simp [havoids hid hc]
  rw [urlPath, htext, List.takeWhile_append_of_pos hbefore, Text.takeWhile_dropWhile, List.append_nil,
    String.ofList_toList]

theorem stripPathParameters_encodeUrl {param id : String} (hparam : Avoids [';', '=', '/', '?', '#'] param)
    (hid : Avoids [';', '/', '?', '#'] id) (url : String) : stripPathParameters (urlPath (encodeUrl url param id))
      = ((stripPathParameters (urlPath url)).1, (stripPathParameters (urlPath url)).2 ++ [(param, id)]) := by
  rw [urlPath_encodeUrl (hparam.mono (by decide)) (hid.mono (by decide)),
    stripPathParameters_append (hparam.mono (by decide)) (hid.mono (by decide))]

/-- Whether `url` leads to `contextPath` or below it: behind the context path it ends, or there is another segment, a
parameter, a query or a fragment. -/
def LeadsInto (contextPath url : String) : Prop :=
  ∃ rest, url = contextPath ++ rest ∧ ∀ c ∈ rest.toList.head?, c ∈ ['/', ';', '?', '#']

/-- A normal context path has none of the marks that end a path or a segment. -/
theorem IsNormalContextPath.avoids {contextPath : String} (h : IsNormalContextPath contextPath) :
    Avoids ['?', ';', '#'] contextPath := by
  rcases h with rfl | h
  · intro c hc
    cases hc
  · intro c hc hmark
    simp only [isContextPath, Bool.and_eq_true, Bool.not_eq_true', Text.hasAny, List.any_eq_false] at h
    exact h.2 c hc (by simpa using List.mem_cons_of_mem '*' hmark)

/-- What follows a text without parameters (`hplain`) at a segment's end (`hrest`) leaves that text, alone or with a
path below it. -/
theorem cleanPath_append {context rest : List Char} (hplain : ';' ∉ context)
    (hrest : ∀ c ∈ rest.head?, c = '/' ∨ c = ';') :
    cleanPath (context ++ rest) = context ∨ ∃ below, cleanPath (context ++ rest) = context ++ '/' :: below := by
  cases rest with
  | nil => exact .inl (by rw [List.append_nil, cleanPath_of_not_mem hplain])
  | cons c rest =>
    rcases hrest c rfl with rfl | rfl
    · exact .inr ⟨cleanPath rest, by rw [cleanPath_append_slash, cleanPath_of_not_mem hplain]⟩
    · by_cases hslash : '/' ∈ rest
      · -- `params` ends where the next segment starts.
        obtain ⟨params, below, rfl, hparams⟩ := List.eq_append_cons_of_mem hslash
        refine .inr ⟨cleanPath below, ?_⟩
        rw [← List.cons_append, ← List.append_assoc, cleanPath_append_slash, cleanPath_append_parameters hparams,
          cleanPath_of_not_mem hplain]
      · exact .inl (by rw [cleanPath_append_parameters hslash, cleanPath_of_not_mem hplain])

/-- A URL that leads into a context path (`h`) does so without its parameters. -/
theorem claims_of_leadsInto {contextPath url : String} (hnormal : IsNormalContextPath contextPath)
    (h : LeadsInto contextPath url) : Claims contextPath (stripPathParameters (urlPath url)).1 := by
  obtain ⟨rest, rfl, hrest⟩ := h
  have havoids := hnormal.avoids
  have hcontext : ∀ c ∈ contextPath.toList, (!endsPath c) = true := by
    intro c hc
    have hmark := havoids c hc
    simp only [List.mem_cons, List.not_mem_nil, or_false, not_or] at hmark
    simp [endsPath, hmark]
  have hpath : (urlPath (contextPath ++ rest)).toList
      = contextPath.toList ++ rest.toList.takeWhile fun c => !endsPath c := by
    rw [urlPath, String.toList_ofList, String.toList_append, List.takeWhile_append_of_pos hcontext]
  -- By `hrest` the rest is empty or starts with one of the four marks, two of which end the path.
  have hstart : ∀ c ∈ (rest.toList.takeWhile fun c => !endsPath c).head?, c = '/' ∨ c = ';' := by
    intro c hc
    cases hlist : rest.toList with
    | nil => simp [hlist] at hc
    | cons d r =>
      rw [hlist, List.takeWhile_cons] at hc
      split at hc
      · next hends =>
        obtain rfl := Option.some.inj hc
        have hmark := hrest d (by simp [hlist])
        simp only [List.mem_cons, List.not_mem_nil, or_false] at hmark
        rcases hmark with rfl | rfl | rfl | rfl
        · exact .inl rfl
        · exact .inr rfl
        · cases hends
        · cases hends
      · cases hc
  rw [stripPathParameters_eq, hpath]
  rcases cleanPath_append (havoids.not_mem (by simp)) hstart with hclean | ⟨below, hclean⟩
  · exact .inr (.inl (by rw [hclean, String.ofList_toList]))
  · refine .inr (.inr ⟨String.ofList below, String.toList_inj.1 ?_⟩)
    rw [hclean]
    simp

end ServletContainer
