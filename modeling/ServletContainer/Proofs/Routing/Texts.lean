import ServletContainer.Proofs.Routing.Precedence
import ServletContainer.Proofs.Routing.Shapes

namespace ServletContainer

/-!
# The texts that patterns are shown with

A match and a conflict tell of a pattern by a text. Read again it is this pattern, unless the pattern was registered
with the empty text: it is shown as a slash, which is the text of another pattern.

* `UrlPattern.parse_text` — what the text of a pattern is read as.
* `UrlPattern.eq_of_parse_eq` — no two texts stand for one pattern.
* `MappingTable.Shows` — the text that a table shows for one of its mappings.
* `MappingTable.shows_and_reads_back` — which of the texts that are shown are read as what they were registered as.
-/

namespace UrlPattern

/-! ### Printing and reading -/

/-- The empty text is read (`h`) as the root alone. -/
theorem eq_root_of_parse {q : UrlPattern} (h : parse "" = .ok q) : q = .exact "/" :=
  (parse_eq_ok_iff.1 h).unique .root

/-- A pattern is shown with the text that it was read from, unless this is empty (`hne`). -/
theorem text_of_parse {s : String} {q : UrlPattern} (h : parse s = .ok q) (hne : s ≠ "") : q.text = s := by
  cases parse_eq_ok_iff.1 h with
  | root => exact absurd rfl hne
  | default | exact | all | below | extension => rfl

/-- The text of a pattern that was read (`h`) is read as the same pattern; but a slash in place of the empty text is
read as the default. -/
theorem parse_text {s : String} {q : UrlPattern} (h : parse s = .ok q) :
    parse q.text = .ok (if s = "" then .default else q) := by
  by_cases hs : s = ""
  · subst hs
    obtain rfl := eq_root_of_parse h
    exact parse_eq_ok_iff.2 .default
  · rw [if_neg hs, text_of_parse h hs, h]

/-- So it is lost for the empty text only. -/
theorem parse_text_eq_iff {s : String} {q : UrlPattern} (h : parse s = .ok q) : parse q.text = .ok q ↔ s ≠ "" := by
  rw [parse_text h]
  constructor
  · rintro heq rfl
    obtain rfl := eq_root_of_parse h
    cases heq
  · intro hne
    rw [if_neg hne]

/-- No two texts are read as one pattern: two that are shown alike have one text, or one of them is empty. -/
theorem eq_of_parse_eq {s s' : String} {q : UrlPattern} (h : parse s = .ok q) (h' : parse s' = .ok q) : s = s' := by
  -- `parse_text_eq_iff`: whether a text reads back is told by `q` alone, and a text that does is the one that is shown.
  have hempty : s ≠ "" ↔ s' ≠ "" := (parse_text_eq_iff h).symm.trans (parse_text_eq_iff h')
  by_cases hs : s = ""
  · rw [hs, not_not.1 (hempty.not.1 (not_not.2 hs))]
  · rw [← text_of_parse h hs, text_of_parse h' (hempty.1 hs)]

/-- Of patterns that are shown alike (`htext`), only the one of the empty text is another one. -/
theorem eq_iff_of_text_eq {s s' : String} {q q' : UrlPattern} (h : parse s = .ok q) (h' : parse s' = .ok q')
    (htext : q.text = q'.text) : q = q' ↔ (s = "" ↔ s' = "") := by
  constructor
  · rintro rfl
    rw [eq_of_parse_eq h h']
  · intro hempty
    by_cases hs : s = ""
    · obtain rfl := hs
      obtain rfl := hempty.1 rfl
      exact Except.ok.inj (h.symm.trans h')
    · have hback : parse q.text = .ok q := (parse_text_eq_iff h).2 hs
      have hback' : parse q'.text = .ok q' := (parse_text_eq_iff h').2 (hempty.not.1 hs)
      rw [htext] at hback
      exact Except.ok.inj (hback.symm.trans hback')

end UrlPattern

namespace MappingTable

open UrlPattern

/-! ### Matches and conflicts -/

/-- `add` refuses a registration for a conflict if and only if its pattern belongs to another servlet, which it names,
and it shows the pattern with its text. -/
theorem add_eq_conflict_iff {t : MappingTable} {s servlet shown existing : String} :
    t.add s servlet = .error (.conflict shown existing) ↔
      ∃ q, parse s = .ok q ∧ shown = q.text ∧ t.owner? q = some existing ∧ existing ≠ servlet := by
  unfold add
  cases hparse : parse s with
  | error e =>
    obtain ⟨-, rfl⟩ := parse_eq_error_iff.1 hparse
    simp
  | ok q =>
    cases howner : t.owner? q with
    | none => simp [howner]
    | some other =>
      by_cases hsame : other = servlet
      · simp [howner, hsame, eq_comm]
      · -- `other` is another servlet: the only way to a conflict.
        rw [← ne_eq] at hsame
        simp only [howner, if_neg hsame, Except.error.injEq, MappingError.conflict.injEq, Except.ok.injEq,
          Option.some.injEq, exists_eq_left']
        constructor
        · rintro ⟨rfl, rfl⟩
          exact ⟨rfl, rfl, hsame⟩
        · rintro ⟨rfl, rfl, -⟩
          exact ⟨rfl, rfl⟩

/-- What a table shows, after registrations in order, for the mapping of a pattern to a servlet that was registered with
the text `s`. -/
structure Shows (history : List Registration) (shown s servlet : String) (q : UrlPattern) : Prop where
  /-- The text was registered for the servlet. -/
  mem : (s, servlet) ∈ history
  reads : parse s = .ok q
  owner : (empty.registerAll history).owner? q = some servlet
  /-- No other text could have been registered for the pattern. -/
  only : ∀ s', parse s' = .ok q → s' = s
  text : shown = q.text
  /-- The text that is shown tells of the pattern, unless the text that was registered is empty. -/
  back : parse shown = .ok q ↔ s ≠ ""

/-- A mapping of the table (`h`) is shown with the text of its pattern, and the text was registered for the servlet. -/
theorem exists_shows {history : List Registration} {servlet : String} {q : UrlPattern}
    (h : (empty.registerAll history).owner? q = some servlet) : ∃ s, Shows history q.text s servlet q := by
  have hmem : (q, servlet) ∈ empty.registered history := ((represents_registerAll history).owner q servlet).2 h
  obtain ⟨⟨s, _⟩, he, hq, rfl⟩ := exists_of_mem_registered hmem
  exact ⟨s, he, hq, h, fun s' hs' => eq_of_parse_eq hs' hq, rfl, parse_text_eq_iff hq⟩

/-- **Round trip.** `text` and `parse` undo each other but for the empty text:

* a pattern is read back from its text if and only if it was not read from the empty text;
* two patterns that are shown alike are the same if and only if both or none of them was read from the empty text;
* the pattern of a match, and that of a conflict, is the one of a text registered for the servlet which is named with
  it.

Exactly where that text is not empty, the pattern is read back from what is shown. -/
theorem shows_and_reads_back (history : List Registration) :
    (∀ s q, parse s = .ok q → (parse q.text = .ok q ↔ s ≠ "")) ∧
    (∀ s q s' q', parse s = .ok q → parse s' = .ok q' → q.text = q'.text → (q = q' ↔ (s = "" ↔ s' = ""))) ∧
    (∀ path m, (empty.registerAll history).map? path = some m →
      ∃ s, Shows history m.pattern.text s m.servletName m.pattern) ∧
    ∀ s servlet shown existing, (empty.registerAll history).add s servlet = .error (.conflict shown existing) →
      ∃ q, Shows history shown s existing q := by
  refine ⟨fun s q h => parse_text_eq_iff h, fun s q s' q' h h' => eq_iff_of_text_eq h h', ?_⟩
  constructor
  · intro path m hm
    have hselects := (represents_registerAll history).map?_eq_some_iff.1 hm
    exact exists_shows (((represents_registerAll history).owner _ _).1 hselects.mem)
  · intro s servlet shown existing hconflict
    obtain ⟨q, hq, rfl, howner, -⟩ := add_eq_conflict_iff.1 hconflict
    obtain ⟨s', hshows⟩ := exists_shows howner
    -- `hshows.only`: no other text than `s` stands for the pattern.
    obtain rfl := hshows.only s hq
    exact ⟨q, hshows⟩

/-- The root beside a prefix: a match by the prefix and a conflict over it show what was registered. -/
theorem shows_and_reads_back_prefix :
    (∃ s, Shows [("", "home"), ("/a/*", "list")] "/a/*" s "list" (.below "/a")) ∧
    (∃ q, Shows [("", "home"), ("/a/*", "list")] "/a/*" "/a/*" "list" q ∧ parse "/a/*" = .ok q) ∧
    parse (UrlPattern.text (.below "/a")) = .ok (.below "/a") ∧
    UrlPattern.text (.exact "/") = UrlPattern.text .default ∧ UrlPattern.exact "/" ≠ .default := by
  obtain ⟨hback, halike, hmatch, hconflict⟩ := shows_and_reads_back [("", "home"), ("/a/*", "list")]
  refine ⟨?_, ?_, (hback "/a/*" _ rfl).2 (by decide), rfl, ?_⟩
  · exact hmatch "/a/b" ⟨"list", .below "/a", "/a", some "/b"⟩ rfl
  · obtain ⟨q, hq⟩ := hconflict "/a/*" "home" "/a/*" "list" rfl
    exact ⟨q, hq, hq.back.2 (by decide)⟩
  · intro heq
    exact absurd ((halike "" _ "/" _ rfl rfl rfl).1 heq) (by decide)

/-- The root is shown as a slash, which is read as the default. So the conflict names a pattern that is free. -/
theorem not_reads_back_root :
    parse "" = .ok (.exact "/") ∧ parse (UrlPattern.text (.exact "/")) = .ok .default ∧
    (empty.registerAll [("", "a")]).add "" "b" = .error (.conflict "/" "a") ∧
    ∃ t, (empty.registerAll [("", "a")]).add "/" "b" = .ok t :=
  ⟨rfl, rfl, rfl, _, rfl⟩

end MappingTable

end ServletContainer
