import ServletContainer.Proofs.Routing.Coverage
import ServletContainer.Proofs.Routing.Shapes

namespace ServletContainer

/-!
# What the text of a pattern says

A pattern is written as a text that tells which paths it is for. Apart from one kind of text the pattern that is read
covers just these paths.

* `UrlPattern.Means` — the texts of patterns, each with the paths that it tells of.
* `UrlPattern.HasDottedExtension` — the texts that are told of an extension with a dot in it.
* `UrlPattern.covers_iff_means` — exactly these texts are read, and all but those with such an extension mean what they
  say.
-/

/-- A path ends with a dot and `ext` if and only if its last segment does, for `ext` has no slash (`hslash`). -/
theorem exists_isLastSegment_iff {path ext : String} (hslash : '/' ∉ ext.toList) :
    (∃ stem, IsLastSegment path (stem ++ "." ++ ext)) ↔ ∃ stem, path = stem ++ "." ++ ext := by
  constructor
  · rintro ⟨stem, -, hwhole | ⟨directory, hpath⟩⟩
    · exact ⟨stem, hwhole⟩
    · refine ⟨directory ++ "/" ++ stem, ?_⟩
      rw [hpath]
      simp [String.append_assoc]
  · rintro ⟨stem, hpath⟩
    have hlist : path.toList = stem.toList ++ '.' :: ext.toList := by simp [hpath]
    obtain ⟨x, hx⟩ := UrlPattern.exists_lastSegment_eq_append hlist (by decide) hslash
    obtain ⟨d, hd, hnone, hcut⟩ := UrlPattern.exists_eq_append_lastSegment path.toList
    -- `x`, the part of the stem within the last segment, stands before the dot there.
    have hsegment : (String.ofList x ++ "." ++ ext).toList = UrlPattern.lastSegment path.toList := by simp [hx]
    refine ⟨String.ofList x, by rwa [hsegment], ?_⟩
    rcases hcut with rfl | ⟨directory, rfl⟩
    · exact .inl (String.toList_inj.1 (by rw [hsegment]; simpa using hd))
    · refine .inr ⟨String.ofList directory, String.toList_inj.1 ?_⟩
      rw [String.toList_append, hsegment]
      simpa using hd

namespace UrlPattern

/-! ### Texts -/

/-- What the `text` of a pattern says: the texts that there are, each with the `paths` that it tells of. -/
inductive Means : (text : String) → (paths : String → Prop) → Prop
  /-- The empty text tells of the root alone. -/
  | root : Means "" (· = "/")
  /-- A slash tells of every path. -/
  | default : Means "/" fun _ => True
  /-- An asterisk, a dot and an extension tell of the paths whose last segment ends with the dot and the extension. -/
  | extension {ext : String} : ext ≠ "" → Avoids ['/', '*'] ext →
    Means ("*." ++ ext) fun path => ∃ stem, IsLastSegment path (stem ++ "." ++ ext)
  /-- A text, a slash and an asterisk tell of the text and of all below it. -/
  | below {top : String} : (top ++ "/*").toList.head? = some '/' → '*' ∉ top.toList →
    Means (top ++ "/*") (IsAtOrBelow top)
  /-- Any other text tells of itself. -/
  | exact {path : String} : path ≠ "/" → path.toList.head? = some '/' → '*' ∉ path.toList → Means path (· = path)

/-- Whether `text` is `*.` and an extension with a dot in it. -/
def HasDottedExtension (text : String) : Prop := ∃ ext, text = "*." ++ ext ∧ '.' ∈ ext.toList

theorem not_hasDottedExtension {text : String} (h : text.toList.head? ≠ some '*') : ¬ HasDottedExtension text := by
  rintro ⟨ext, rfl, -⟩
  simp at h

/-- The dot in front of `ext` does not count. -/
theorem hasDottedExtension_iff (ext : String) : HasDottedExtension ("*." ++ ext) ↔ '.' ∈ ext.toList := by
  constructor
  · rintro ⟨ext', heq, hdot⟩
    have hsame : ext.toList = ext'.toList := by simpa using congrArg String.toList heq
    rwa [hsame]
  · intro hdot
    exact ⟨ext, rfl, hdot⟩

/-! ### Reading -/

/-- Whatever stands for a pattern says something, one case for each kind. -/
theorem Denotes.exists_means {s : String} {q : UrlPattern} (h : Denotes s q) : ∃ paths, Means s paths := by
  cases h with
  | root => exact ⟨_, .root⟩
  | default => exact ⟨_, .default⟩
  | @exact rest hne hstar =>
    have hother : "/" ++ rest ≠ "/" := by
      intro heq
      have hnil : rest.toList = [] := by simpa using congrArg String.toList heq
      exact hne (String.toList_inj.1 hnil)
    exact ⟨_, .exact hother (by simp) (by simpa using hstar)⟩
  | all => exact ⟨_, @Means.below "" (by decide) (by decide)⟩
  | below hstar => exact ⟨_, .below (by simp) (by simpa using hstar)⟩
  | extension hne havoids => exact ⟨_, .extension hne havoids⟩

/-- What starts with a slash (`h`) is a slash and the rest. -/
theorem exists_eq_slash_append {s : String} (h : s.toList.head? = some '/') : ∃ rest, s = "/" ++ rest := by
  obtain ⟨r, hr⟩ := List.head?_eq_some_iff.1 h
  exact ⟨String.ofList r, String.toList_inj.1 (by simp [hr])⟩

/-- What says something stands for a pattern, which covers the paths that it tells of, unless it is that of an extension
with a dot. One case for each kind of text. -/
theorem Means.exists_denotes {s : String} {paths : String → Prop} (h : Means s paths) :
    ∃ q, Denotes s q ∧ ∀ path, q.covers path = true ↔ paths path ∧ ¬ HasDottedExtension s := by
  cases h with
  | root =>
    have hplain : ¬ HasDottedExtension "" := not_hasDottedExtension (by decide)
    refine ⟨_, .root, fun path => ?_⟩
    rw [covers_exact_iff, and_iff_left hplain, eq_comm]
  | default =>
    have hplain : ¬ HasDottedExtension "/" := not_hasDottedExtension (by decide)
    exact ⟨_, .default, fun path => ⟨fun _ => ⟨trivial, hplain⟩, fun _ => covers_default path⟩⟩
  | @extension ext hne havoids =>
    refine ⟨_, .extension hne havoids, fun path => ?_⟩
    have hslash : '/' ∉ ext.toList := havoids.not_mem (by decide)
    show covers (.extension ext) path = true ↔
      (∃ stem, IsLastSegment path (stem ++ "." ++ ext)) ∧ ¬ HasDottedExtension ("*." ++ ext)
    rw [covers_extension_iff, hasDottedExtension_iff, exists_isLastSegment_iff hslash]
    -- That `ext` has no dot is part of `HasExtension`.
    constructor
    · rintro ⟨hdot, -, hends⟩
      exact ⟨hends, hdot⟩
    · rintro ⟨hends, hdot⟩
      exact ⟨hdot, hslash, hends⟩
  | @below top hhead hstar =>
    have hplain : ¬ HasDottedExtension (top ++ "/*") := not_hasDottedExtension (by rw [hhead]; decide)
    -- `top` is empty, or starts with a slash itself.
    have hdenotes : Denotes (top ++ "/*") (.below top) := by
      by_cases htop : top = ""
      · rw [htop]
        exact .all
      · have hfirst : top.toList.head? = some '/' := by
          rwa [String.toList_append, List.head?_append_of_ne_nil _ (by simpa using htop)] at hhead
        obtain ⟨rest, rfl⟩ := exists_eq_slash_append hfirst
        exact .below (by simpa using hstar)
    refine ⟨_, hdenotes, fun path => ?_⟩
    rw [covers_below_iff, and_iff_left hplain]
  | exact hother hhead hstar =>
    have hplain : ¬ HasDottedExtension s := not_hasDottedExtension (by rw [hhead]; decide)
    obtain ⟨rest, rfl⟩ := exists_eq_slash_append hhead
    have hne : rest ≠ "" := by
      rintro rfl
      exact hother rfl
    refine ⟨_, .exact hne (by simpa using hstar), fun path => ?_⟩
    rw [covers_exact_iff, and_iff_left hplain, eq_comm]

/-- Every text of a pattern tells of some path, also that of an extension with a dot. -/
theorem Means.exists_path {s : String} {paths : String → Prop} (h : Means s paths) : ∃ path, paths path := by
  cases h with
  | root => exact ⟨"/", rfl⟩
  | default => exact ⟨"", trivial⟩
  | @extension ext hne havoids =>
    exact ⟨"." ++ ext, (exists_isLastSegment_iff (havoids.not_mem (by decide))).2 ⟨"", by simp⟩⟩
  | @below top => exact ⟨top, .inl rfl⟩
  | exact => exact ⟨s, rfl⟩

/-- **Meaning.** The texts that `parse` reads are exactly those that say something, and each of them is read as a
pattern that covers the paths it tells of, if and only if it is not that of an extension with a dot in it. Such a text
is read too, as a pattern that covers no path at all. -/
theorem covers_iff_means (s : String) :
    ((∃ q, parse s = .ok q) ↔ ∃ paths, Means s paths) ∧
    ∀ paths, Means s paths → ∃ q, parse s = .ok q ∧
      (∀ path, q.covers path = true ↔ paths path ∧ ¬ HasDottedExtension s) ∧
      ((∀ path, q.covers path = true ↔ paths path) ↔ ¬ HasDottedExtension s) := by
  refine ⟨⟨?_, ?_⟩, ?_⟩
  · rintro ⟨q, hq⟩
    exact (parse_eq_ok_iff.1 hq).exists_means
  · rintro ⟨paths, hmeans⟩
    obtain ⟨q, hq, -⟩ := hmeans.exists_denotes
    exact ⟨q, parse_eq_ok_iff.2 hq⟩
  · intro paths hmeans
    obtain ⟨q, hq, hcovers⟩ := hmeans.exists_denotes
    refine ⟨q, parse_eq_ok_iff.2 hq, hcovers, fun hall => ?_, fun hplain path => ?_⟩
    · -- By `hall` the path of `hpath` is covered, and so by `hcovers` the pattern has no dotted extension.
      obtain ⟨path, hpath⟩ := hmeans.exists_path
      exact ((hcovers path).1 ((hall path).2 hpath)).2
    · rw [hcovers path, and_iff_left hplain]

/-- A text with empty segments, and one of an extension. -/
theorem covers_iff_means_nested :
    Means "/a//*" (IsAtOrBelow "/a/") ∧
    (∃ q, parse "/a//*" = .ok q ∧ q.covers "/a//b" = true ∧ q.covers "/a/b" = false) ∧
    Means "*.gz" (fun path => ∃ stem, IsLastSegment path (stem ++ "." ++ "gz")) ∧
    ∃ q, parse "*.gz" = .ok q ∧ q.covers "/a.d/b.tar.gz" = true := by
  have hbelow : Means "/a//*" (IsAtOrBelow "/a/") := @Means.below "/a/" (by decide) (by decide)
  have hextension : Means "*.gz" fun path => ∃ stem, IsLastSegment path (stem ++ "." ++ "gz") :=
    @Means.extension "gz" (by decide) (by decide)
  obtain ⟨q, hq, hcovers, -⟩ := (covers_iff_means "/a//*").2 _ hbelow
  obtain ⟨q', hq', hcovers', -⟩ := (covers_iff_means "*.gz").2 _ hextension
  refine ⟨hbelow, ⟨q, hq, ?_, ?_⟩, hextension, q', hq', ?_⟩
  · exact (hcovers _).2 ⟨.inr ⟨"b", rfl⟩, not_hasDottedExtension (by decide)⟩
  · obtain rfl : UrlPattern.below "/a/" = q := Except.ok.inj (Eq.trans rfl hq)
    rfl
  · refine (hcovers' _).2 ⟨⟨"b.tar", by decide, .inr ⟨"/a.d", rfl⟩⟩, ?_⟩
    exact fun hdotted => absurd ((hasDottedExtension_iff "gz").1 hdotted) (by decide)

/-- An archive ends with its extension, and is not covered. -/
theorem not_covers_archive : parse "*.tar.gz" = .ok (.extension "tar.gz") ∧
    (∃ paths, Means "*.tar.gz" paths ∧ paths "/a.tar.gz") ∧
    (extension "tar.gz").covers "/a.tar.gz" = false := by
  refine ⟨rfl, ⟨_, @Means.extension "tar.gz" (by decide) (by decide), ?_⟩, by decide⟩
  exact ⟨"a", by decide, .inr ⟨"", rfl⟩⟩

end UrlPattern

end ServletContainer
