import Mathlib.Data.List.TakeWhile
import ServletContainer.Host
import ServletContainer.Proofs.Application.Building
import ServletContainer.Proofs.Routing.Coverage

namespace ServletContainer

/-!
# The application that a path belongs to

A host cuts a path back slash by slash until an application is published there. Context paths being in normal
form, this finds the longest of those at or above the path.

* `Claims` — an application answers for its context path and all below it, that of the root for everything.
* `Host.mem_ancestors_iff` — what is left of a path when it is cut back.
* `Host.find?_eq_some_iff`, `Host.find?_eq_none_iff` — the look-up, told in claims alone.
-/

/-- Whether an application at `contextPath` answers for `path`. -/
def Claims (contextPath path : String) : Prop := contextPath = "" ∨ IsAtOrBelow contextPath path

namespace Text

/-! ### Trimming slashes -/

/-- A text is what `trimTail` leaves, and `c` some times behind it. -/
theorem exists_eq_trimTail_append (c : Char) (s : List Char) : ∃ n, s = trimTail c s ++ List.replicate n c := by
  have hall : ∀ d ∈ s.reverse.takeWhile (· = c), d = c := by
    intro d hd
    simpa using List.mem_takeWhile_imp hd
  refine ⟨(s.reverse.takeWhile (· = c)).length, ?_⟩
  have hcut : s.reverse.takeWhile (· = c) ++ s.reverse.dropWhile (· = c) = s.reverse :=
    List.takeWhile_append_dropWhile
  rw [List.eq_replicate_of_mem hall] at hcut
  have hrev := congrArg List.reverse hcut
  simpa [trimTail] using hrev.symm

/-- A text that does not end with `c` is left as it is. -/
theorem trimTail_of_getLast?_ne {c : Char} {s : List Char} (h : s.getLast? ≠ some c) : trimTail c s = s := by
  unfold trimTail
  rw [← List.head?_reverse] at h
  cases hs : s.reverse with
  | nil => simpa using hs.symm
  | cons d r =>
    have hd : ¬ d = c := by simpa [hs] using h
    rw [List.dropWhile_cons_of_neg (by simpa using hd), ← hs, List.reverse_reverse]

/-- If nothing but `c` follows a `c`, it is trimmed as well; otherwise everything before it stays. -/
theorem trimTail_append_cons (c : Char) (s t : List Char) :
    trimTail c (s ++ c :: t) = if trimTail c t = [] then trimTail c s else s ++ c :: trimTail c t := by
  unfold trimTail
  rw [List.reverse_append, List.reverse_cons, List.append_assoc, List.dropWhile_append]
  by_cases h : t.reverse.dropWhile (· = c) = []
  · simp [h]
  · simp [h]

/-! ### Cutting back -/

/-- What stands before a slash is shorter than the text. -/
theorem length_lt_of_mem_slashHeads {s a : List Char} (h : a ∈ slashHeads s) : a.length < s.length := by
  obtain ⟨r, rfl⟩ := mem_slashHeads_iff.1 h
  simp

/-- `slashHeads` has the shorter ones first. -/
theorem pairwise_slashHeads (s : List Char) : (slashHeads s).Pairwise fun a b => a.length < b.length := by
  induction s with
  | nil => exact .nil
  | cons c r ih =>
    have htail : ((slashHeads r).map (c :: ·)).Pairwise fun a b => a.length < b.length := by
      rw [List.pairwise_map]
      exact ih.imp fun hab => by simpa using hab
    rw [slashHeads]
    split
    · refine List.pairwise_cons.2 ⟨fun b hb => ?_, htail⟩
      obtain ⟨a, -, rfl⟩ := List.mem_map.1 hb
      simp
    · exact htail

end Text

namespace Host

/-- `ancestors` are the path without slashes at its end, and what stands before any slash of that. -/
theorem mem_ancestors_iff {c : String} {path : List Char} :
    c ∈ ancestors path ↔
      c.toList = Text.trimTail '/' path ∨ ∃ r, Text.trimTail '/' path = c.toList ++ '/' :: r := by
  unfold ancestors
  simp only [List.map_cons, List.mem_cons, List.mem_map, List.mem_reverse, Text.mem_slashHeads_iff]
  constructor
  · rintro (rfl | ⟨a, ⟨r, hr⟩, rfl⟩)
    · exact .inl (by simp)
    · exact .inr ⟨r, by simpa using hr⟩
  · rintro (h | ⟨r, hr⟩)
    · exact .inl (by rw [← h]; simp)
    · exact .inr ⟨c.toList, ⟨r, hr⟩, by simp⟩

/-- The longest comes first. -/
theorem pairwise_ancestors (path : List Char) :
    (ancestors path).Pairwise fun a b => b.length < a.length := by
  unfold ancestors
  rw [List.pairwise_map]
  simp only [String.length_ofList]
  refine List.pairwise_cons.2 ⟨fun a ha => ?_, ?_⟩
  · exact Text.length_lt_of_mem_slashHeads (List.mem_reverse.1 ha)
  · exact List.pairwise_reverse.2 (Text.pairwise_slashHeads _)

/-- A path is at or below each of its `ancestors`. -/
theorem isAtOrBelow_of_mem_ancestors {c path : String} (h : c ∈ ancestors path.toList) : IsAtOrBelow c path := by
  obtain ⟨n, hn⟩ := Text.exists_eq_trimTail_append '/' path.toList
  rcases mem_ancestors_iff.1 h with hc | ⟨r, hr⟩
  · rw [← hc] at hn
    cases n with
    | zero => exact .inl (String.toList_inj.1 (by simpa using hn))
    | succ n =>
      refine .inr ⟨String.ofList (List.replicate n '/'), String.toList_inj.1 ?_⟩
      rw [hn, List.replicate_succ]
      simp
  · rw [hr] at hn
    refine .inr ⟨String.ofList (r ++ List.replicate n '/'), String.toList_inj.1 ?_⟩
    rw [hn]
    simp

/-- A text without a slash at its end is among the `ancestors` of every path at or below it. -/
theorem mem_ancestors_of_isAtOrBelow {c path : String} (hlast : c.toList.getLast? ≠ some '/')
    (h : IsAtOrBelow c path) : c ∈ ancestors path.toList := by
  have htrim := Text.trimTail_of_getLast?_ne hlast
  rw [mem_ancestors_iff]
  rcases h with rfl | ⟨rest, rfl⟩
  · exact .inl htrim.symm
  · -- The slash behind `c` is trimmed with the rest of the path, or it is one at which `ancestors` cuts.
    have hpath : (c ++ "/" ++ rest).toList = c.toList ++ '/' :: rest.toList := by simp
    rw [hpath, Text.trimTail_append_cons]
    split
    · exact .inl htrim.symm
    · exact .inr ⟨_, rfl⟩

/-! ### The look-up -/

section Find

variable {h : Host} (hnormal : ∀ c, h.get? c ≠ none → IsNormalContextPath c) {path : String}
include hnormal

/-- So is what is published and `Claims` the path, if it is not the root. -/
theorem mem_ancestors_of_claims {c : String} (hc : h.get? c ≠ none) (hclaims : Claims c path) (hne : c ≠ "") :
    c ∈ ancestors path.toList :=
  mem_ancestors_of_isAtOrBelow (hnormal c hc).getLast?_ne (hclaims.resolve_left hne)

/-- Thus `find?` gives an application if what is published anywhere `Claims` the path. -/
theorem find?_ne_none {c : String} (hc : h.get? c ≠ none) (hclaims : Claims c path) : h.find? path ≠ none := by
  intro hnone
  obtain ⟨hcut, hroot⟩ := Option.or_eq_none_iff.1 hnone
  by_cases hne : c = ""
  · exact hc (hne ▸ hroot)
  · exact hc (List.findSome?_eq_none_iff.1 hcut c (mem_ancestors_of_claims hnormal hc hclaims hne))

/-- What `find?` gives is published at the longest context path that `Claims` the path. -/
theorem exists_longest_of_find? {id : AppId} (hfind : h.find? path = some id) :
    ∃ c, h.get? c = some id ∧ Claims c path ∧
      ∀ c', h.get? c' ≠ none → Claims c' path → c'.length ≤ c.length := by
  rcases Option.or_eq_some_iff.1 hfind with hcut | ⟨hcut, hroot⟩
  · obtain ⟨longer, c, shorter, hl, hc, hlonger⟩ := List.findSome?_eq_some_iff.1 hcut
    have hsorted := pairwise_ancestors path.toList
    rw [hl, List.pairwise_append, List.pairwise_cons] at hsorted
    have hmem : c ∈ ancestors path.toList := by simp [hl]
    refine ⟨c, hc, .inr (isAtOrBelow_of_mem_ancestors hmem), fun c' hc' hclaims => ?_⟩
    by_cases hne : c' = ""
    · simp [hne]
    · -- Nothing is published at what comes before `c`, and what comes after it is shorter.
      have hmem' := mem_ancestors_of_claims hnormal hc' hclaims hne
      rw [hl, List.mem_append, List.mem_cons] at hmem'
      rcases hmem' with hbefore | rfl | hafter
      · exact absurd (hlonger c' hbefore) hc'
      · exact Nat.le_refl _
      · exact Nat.le_of_lt (hsorted.2.1.1 c' hafter)
  · refine ⟨"", hroot, .inl rfl, fun c' hc' hclaims => ?_⟩
    by_cases hne : c' = ""
    · simp [hne]
    · have hmem' := mem_ancestors_of_claims hnormal hc' hclaims hne
      exact absurd (List.findSome?_eq_none_iff.1 hcut c' hmem') hc'

/-- `find?` gives none if and only if nothing that is published `Claims` the path. -/
theorem find?_eq_none_iff : h.find? path = none ↔ ∀ c, h.get? c ≠ none → ¬ Claims c path := by
  constructor
  · intro hnone c hc hclaims
    exact find?_ne_none hnormal hc hclaims hnone
  · intro hnot
    by_contra hne
    obtain ⟨id, hid⟩ := Option.ne_none_iff_exists'.1 hne
    obtain ⟨c, hc, hclaims, -⟩ := exists_longest_of_find? hnormal hid
    exact hnot c (by simp [hc]) hclaims

/-- `find?` gives what is published at the longest context path that `Claims` the path, and nothing else. -/
theorem find?_eq_some_iff {id : AppId} :
    h.find? path = some id ↔ ∃ c, h.get? c = some id ∧ Claims c path ∧
      ∀ c', h.get? c' ≠ none → Claims c' path → c'.length ≤ c.length := by
  refine ⟨exists_longest_of_find? hnormal, ?_⟩
  rintro ⟨c, hc, hclaims, hlongest⟩
  obtain ⟨id', hid'⟩ := Option.ne_none_iff_exists'.1 (find?_ne_none hnormal (by simp [hc]) hclaims)
  obtain ⟨c', hc', hclaims', hlongest'⟩ := exists_longest_of_find? hnormal hid'
  -- `find?` finds a longest `c'` by the other direction, and it is as long as `c`.
  have hlength : c.length = c'.length :=
    Nat.le_antisymm (hlongest' c (by simp [hc]) hclaims) (hlongest c' (by simp [hc']) hclaims')
  -- Both `c` and `c'` claim the path, so they are equal once they are equally long.
  have heq : c = c' := by
    rcases hclaims with rfl | hat
    · exact (String.length_eq_zero_iff.1 (by simpa using hlength.symm)).symm
    · rcases hclaims' with rfl | hat'
      · exact String.length_eq_zero_iff.1 (by simpa using hlength)
      · obtain ⟨below, hd⟩ := hat.exists_dividesAt
        obtain ⟨below', hd'⟩ := hat'.exists_dividesAt
        exact hd.eq_of_length_eq hd' hlength
  rw [hid', ← hc, ← hc', heq]

end Find

end Host

end ServletContainer
