import Mathlib.Data.List.Forall2
import ServletContainer.Proofs.Session.Parameters

namespace ServletContainer

/-!
# Targets of requests

A target is cut at its first question mark, and its path at slashes and semicolons. A parameter is put into a URL where
these cuts take it off again, and nothing else with it.

* `IsTarget`, `splitTarget_eq_iff` — path and query of a target.
* `IsTarget.encodeUrl` — those of a URL into which a parameter was put.
* `IsCutOf`, `forall₂_isCutOf` — the segments of a path without parameters.
* `stripPathParameters_encodeUrl_splitTarget` — what is put in is what is taken off.
-/

/-! ### Path and query -/

/-- A query as it stands in a target, behind its `?`. -/
def queryText : Option String → String
  | some query => "?" ++ query
  | none => ""

/-- Whether `target` is `path` and `query`, which starts behind the first question mark. -/
def IsTarget (target path : String) (query : Option String) : Prop :=
  '?' ∉ path.toList ∧ target = path ++ queryText query

/-- Every target is a path and a query, in one way, which is that of `splitTarget`. -/
theorem splitTarget_eq_iff {target path : String} {query : Option String} :
    Request.splitTarget target = (path, query) ↔ IsTarget target path query := by
  unfold Request.splitTarget
  constructor
  · intro h
    -- `Text.cut` cuts at the first question mark, or nowhere where there is none.
    cases hcut : Text.cut '?' target with
    | none =>
      rw [hcut] at h
      obtain ⟨rfl, rfl⟩ := Prod.mk.inj h
      exact ⟨Text.cut_eq_none_iff.1 hcut, by simp [queryText]⟩
    | some p =>
      rw [hcut] at h
      obtain ⟨rfl, rfl⟩ := Prod.mk.inj h
      obtain ⟨htext, hmark⟩ := Text.cut_eq_some_iff.1 hcut
      exact ⟨hmark, String.toList_inj.1 (by simp [htext, queryText])⟩
  · rintro ⟨hmark, rfl⟩
    cases query with
    | none => rw [queryText, String.append_empty, Text.cut_eq_none_iff.2 hmark]
    | some query =>
      have hcut : Text.cut '?' (path ++ queryText (some query)) = some (path, query) :=
        Text.cut_eq_some_iff.2 ⟨by simp [queryText], hmark⟩
      rw [hcut]

/-! ### A parameter that is put in -/

/-- `encodeUrl` puts the parameter behind the path, and the query stays; there is no fragment (`hurl`). -/
theorem IsTarget.encodeUrl {url path : String} {query : Option String} (h : IsTarget url path query)
    (hurl : Avoids ['#'] url) {param id : String} (hparam : Avoids ['?'] param) (hid : Avoids ['?'] id) :
    IsTarget (encodeUrl url param id) (path ++ ";" ++ param ++ "=" ++ id) query := by
  obtain ⟨hmark, rfl⟩ := h
  have hpath : ∀ c ∈ path.toList, (!endsPath c) = true := by
    intro c hc
    have hquestion : c ≠ '?' := fun heq => hmark (heq ▸ hc)
    have hhash : c ≠ '#' := by simpa using hurl c (by simp [hc])
    simp [endsPath, hquestion, hhash]
  have hquery : ∀ c ∈ (queryText query).toList.head?, (!endsPath c) = false := by
    cases query with
    | none => simp [queryText]
    | some query => simp [queryText, endsPath]
  -- By `hpath` and `hquery` the path ends where the query starts.
  have hcut := Text.span_append hpath hquery
  rw [← String.toList_append] at hcut
  refine ⟨?_, ?_⟩
  · simp [hmark, hparam.not_mem (c := '?'), hid.not_mem (c := '?')]
  · simp only [ServletContainer.encodeUrl, hcut, String.ofList_toList]

/-! ### Segments without parameters -/

/-- Whether `clean` is `segment` up to its first semicolon. -/
def IsCutOf (segment clean : String) : Prop :=
  ';' ∉ clean.toList ∧ (segment = clean ∨ ∃ params, segment = clean ++ ";" ++ params)

/-- `cleanSegment` cuts a segment off at its first semicolon. -/
theorem isCutOf_cleanSegment (segment : List Char) :
    IsCutOf (String.ofList segment) (String.ofList (cleanSegment segment)) := by
  refine ⟨by simpa using not_mem_cleanSegment segment, ?_⟩
  by_cases hmark : ';' ∈ segment
  · obtain ⟨clean, params, rfl, hclean⟩ := List.eq_append_cons_of_mem hmark
    refine .inr ⟨String.ofList params, String.toList_inj.1 ?_⟩
    rw [cleanSegment_append, cleanSegment_of_not_mem hclean]
    simp
  · exact .inl (by rw [cleanSegment_of_not_mem hmark])

/-- The segments of a path without parameters are those of the path, each cleaned. -/
theorem pieces_stripPathParameters (path : String) : Text.pieces '/' (stripPathParameters path).1
    = (Text.fields '/' path.toList).map fun segment => String.ofList (cleanSegment segment) := by
  have hslash : ∀ f ∈ (Text.fields '/' path.toList).map cleanSegment, '/' ∉ f := by
    intro f hf
    obtain ⟨segment, hsegment, rfl⟩ := List.mem_map.1 hf
    exact fun hmem => Text.not_mem_of_mem_fields hsegment (List.takeWhile_subset _ hmem)
  rw [stripPathParameters_eq, Text.pieces, String.toList_ofList, cleanPath,
    Text.fields_joinFields (by simpa using Text.fields_ne_nil '/' path.toList) hslash, List.map_map]
  rfl

/-- So they are those of the path, each up to its first semicolon. -/
theorem forall₂_isCutOf (path : String) :
    List.Forall₂ IsCutOf (Text.pieces '/' path) (Text.pieces '/' (stripPathParameters path).1) := by
  rw [pieces_stripPathParameters, Text.pieces, List.forall₂_map_left_iff, List.forall₂_map_right_iff,
    List.forall₂_same]
  exact fun segment _ => isCutOf_cleanSegment segment

/-- A path without semicolons (`h`) has no parameters, and stays as it is. -/
theorem stripPathParameters_of_not_mem {path : String} (h : ';' ∉ path.toList) :
    stripPathParameters path = (path, []) := by
  have hlast : ';' ∉ (Text.fields '/' path.toList).getLastD [] := by
    intro hmem
    rw [List.getLastD_eq_getLast?] at hmem
    cases hget : (Text.fields '/' path.toList).getLast? with
    | none => simp [hget] at hmem
    | some segment =>
      rw [hget, Option.getD_some] at hmem
      exact h (Text.mem_of_mem_fields (List.mem_of_getLast? hget) hmem)
  rw [stripPathParameters_eq, cleanPath_of_not_mem h, String.ofList_toList, lastParameters, segmentParameters,
    Text.fields_of_not_mem hlast]
  rfl

/-! ### What is put in is what is taken off -/

/-- **Encoded URLs.** Put a parameter into a URL without a fragment (`hurl`), whose name and value keep clear of the
marks that URLs are cut at (`hparam`, `hid`):

* the query stays, the path without parameters stays, and the parameters are those that the URL had, and behind them the
  one that was put in;
* whatever the path, what is left of it without parameters has no semicolon; its segments are those of the path, each up
  to its first semicolon; and there is nothing more to take off. -/
theorem stripPathParameters_encodeUrl_splitTarget {url param id : String} (hurl : Avoids ['#'] url)
    (hparam : Avoids [';', '=', '/', '?', '#'] param) (hid : Avoids [';', '/', '?', '#'] id) :
    (Request.splitTarget (encodeUrl url param id)).2 = (Request.splitTarget url).2 ∧
    stripPathParameters (Request.splitTarget (encodeUrl url param id)).1
      = ((stripPathParameters (Request.splitTarget url).1).1,
        (stripPathParameters (Request.splitTarget url).1).2 ++ [(param, id)]) ∧
    ∀ path, ';' ∉ (stripPathParameters path).1.toList ∧
      List.Forall₂ IsCutOf (Text.pieces '/' path) (Text.pieces '/' (stripPathParameters path).1) ∧
      stripPathParameters (stripPathParameters path).1 = ((stripPathParameters path).1, []) := by
  have htarget : IsTarget url (Request.splitTarget url).1 (Request.splitTarget url).2 := splitTarget_eq_iff.1 rfl
  have hencoded := htarget.encodeUrl hurl (hparam.mono (by decide)) (hid.mono (by decide))
  rw [splitTarget_eq_iff.2 hencoded]
  refine ⟨rfl, ?_, fun path => ⟨not_mem_stripPathParameters path, forall₂_isCutOf path, ?_⟩⟩
  · exact stripPathParameters_append (hparam.mono (by decide)) (hid.mono (by decide)) _
  · exact stripPathParameters_of_not_mem (not_mem_stripPathParameters path)

/-- A URL that has parameters in two segments, one of them empty, and marks of all kinds in its query. -/
theorem stripPathParameters_encodeUrl_splitTarget_shop :
    encodeUrl "/a;v=1//b;;x;id=0?q=/;?c" "id" "S=1" = "/a;v=1//b;;x;id=0;id=S=1?q=/;?c" ∧
    (Request.splitTarget (encodeUrl "/a;v=1//b;;x;id=0?q=/;?c" "id" "S=1")).2 = some "q=/;?c" ∧
    stripPathParameters (Request.splitTarget (encodeUrl "/a;v=1//b;;x;id=0?q=/;?c" "id" "S=1")).1
      = ("/a//b", [("x", ""), ("id", "0"), ("id", "S=1")]) := by
  have hurl : Avoids ['#'] "/a;v=1//b;;x;id=0?q=/;?c" := by decide +kernel
  have hparam : Avoids [';', '=', '/', '?', '#'] "id" := by decide +kernel
  have hid : Avoids [';', '/', '?', '#'] "S=1" := by decide +kernel
  obtain ⟨hquery, hpath, -⟩ := stripPathParameters_encodeUrl_splitTarget hurl hparam hid
  refine ⟨by decide +kernel, ?_, ?_⟩
  · rw [hquery]
    decide +kernel
  · rw [hpath]
    decide +kernel

end ServletContainer
