import ServletContainer.Proofs.Routing.Coverage
import ServletContainer.Proofs.Routing.Registration

namespace ServletContainer

/-!
# The precedence of patterns

Among the patterns that cover a path, the one that selects its servlet is the path itself, else the longest
path above it, else its extension, else the default.

* `Selects` — this rule, told without a table.
* `DividesAt.eq_of_length_eq`, `MappingTable.Represents.servlet_unique` — why no two patterns are selected.
* `MappingTable.Represents.map?_eq_some_iff` — a table answers by the rule.
* `MappingTable.map?_registerAll` — so does it after any sequence of registrations, in whichever order.
-/

/-- The match that precedence selects for `path` among the patterns of `R` with their servlets. -/
inductive Selects (R : List (UrlPattern × String)) (path : String) : MappingMatch → Prop
  | exact {servlet : String} : (.exact path, servlet) ∈ R → Selects R path ⟨servlet, .exact path, path, none⟩
  | below {top servlet : String} {rest : Option String} :
    (∀ s, (.exact path, s) ∉ R) →
    (.below top, servlet) ∈ R → DividesAt top path rest →
    (∀ top' s, (.below top', s) ∈ R → IsAtOrBelow top' path → top'.length ≤ top.length) →
    Selects R path ⟨servlet, .below top, top, rest⟩
  | extension {ext servlet : String} :
    (∀ s, (.exact path, s) ∉ R) → (∀ top s, (.below top, s) ∈ R → ¬ IsAtOrBelow top path) →
    (.extension ext, servlet) ∈ R → HasExtension path ext →
    Selects R path ⟨servlet, .extension ext, path, none⟩
  | default {servlet : String} :
    (∀ s, (.exact path, s) ∉ R) → (∀ top s, (.below top, s) ∈ R → ¬ IsAtOrBelow top path) →
    (∀ ext s, (.extension ext, s) ∈ R → ¬ HasExtension path ext) →
    (.default, servlet) ∈ R → Selects R path ⟨servlet, .default, path, none⟩

/-- What precedence selects is one of the patterns with its servlet. -/
theorem Selects.mem {R : List (UrlPattern × String)} {path : String} {m : MappingMatch} (h : Selects R path m) :
    (m.pattern, m.servletName) ∈ R := by
  cases h with
  | exact hs => exact hs
  | below _ hs _ _ => exact hs
  | extension _ _ hs _ => exact hs
  | default _ _ _ hs => exact hs

namespace MappingTable

/-! ### The longest path above a path -/

/-- `matchBelow?` takes the first path of the list that `path` is at or below (`h`). -/
theorem matchBelow?_cons_of_dividesAt {top servlet path : String} {rest : Option String}
    (h : DividesAt top path rest) (l : List (String × String)) :
    matchBelow? path ((top, servlet) :: l) = some ⟨servlet, .below top, top, rest⟩ := by
  cases h with
  | here h =>
    have hr : UrlPattern.restBelow? top path = some [] :=
      UrlPattern.restBelow?_eq_some_iff.2 ⟨by simp [h], .inl rfl⟩
    simp [matchBelow?, hr]
  | below rest h =>
    have hr : UrlPattern.restBelow? top path = some ('/' :: rest.toList) :=
      UrlPattern.restBelow?_eq_some_iff.2 ⟨by simp [h], .inr ⟨_, rfl⟩⟩
    have hs : String.ofList ('/' :: rest.toList) = "/" ++ rest := String.toList_inj.1 (by simp)
    simp [matchBelow?, hr, hs]

/-- `matchBelow?` passes over the paths that `path` is not at or below (`h`). -/
theorem matchBelow?_cons_of_not_isAtOrBelow {e : String × String} {path : String}
    (h : ¬ IsAtOrBelow e.1 path) (l : List (String × String)) :
    matchBelow? path (e :: l) = matchBelow? path l := by
  have hr : UrlPattern.restBelow? e.1 path = none := by
    rw [← Option.not_isSome_iff_eq_none, restBelow?_isSome_iff]
    exact h
  simp [matchBelow?, hr]

/-- So there is no match if and only if the path is at or below none of them. -/
theorem matchBelow?_eq_none_iff {path : String} {l : List (String × String)} :
    matchBelow? path l = none ↔ ∀ e ∈ l, ¬ IsAtOrBelow e.1 path := by
  induction l with
  | nil => simp [matchBelow?]
  | cons e l ih =>
    by_cases h : IsAtOrBelow e.1 path
    · obtain ⟨rest, hd⟩ := h.exists_dividesAt
      have hm : matchBelow? path (e :: l) = some ⟨e.2, .below e.1, e.1, rest⟩ :=
        matchBelow?_cons_of_dividesAt hd l
      simp [hm, h]
    · rw [matchBelow?_cons_of_not_isAtOrBelow h, ih]
      simp [h]

/-- The first match in a list that is `SortedBySize` (`hl`) is at the largest of the paths above, and at the first entry
for it. By induction on the list. -/
theorem exists_of_matchBelow?_eq_some {path : String} {l : List (String × String)} (hl : SortedBySize l)
    {m : MappingMatch} (h : matchBelow? path l = some m) :
    ∃ top servlet rest, Table.find? top l = some servlet ∧ DividesAt top path rest ∧
      (∀ e ∈ l, IsAtOrBelow e.1 path → e.1.utf8ByteSize ≤ top.utf8ByteSize) ∧
      m = ⟨servlet, .below top, top, rest⟩ := by
  induction l with
  | nil => simp [matchBelow?] at h
  | cons e l ih =>
    obtain ⟨he, hl⟩ := List.pairwise_cons.1 hl
    -- `he`: the first entry at or above the path is the longest, as the entries behind it are no longer.
    by_cases hp : IsAtOrBelow e.1 path
    · obtain ⟨rest, hd⟩ := hp.exists_dividesAt
      have hm : matchBelow? path (e :: l) = some ⟨e.2, .below e.1, e.1, rest⟩ :=
        matchBelow?_cons_of_dividesAt hd l
      refine ⟨e.1, e.2, rest, by simp [Table.find?], hd, ?_, Option.some.inj (h.symm.trans hm)⟩
      intro f hf _
      rcases List.mem_cons.1 hf with rfl | hf
      · exact Nat.le_refl _
      · exact he f hf
    · rw [matchBelow?_cons_of_not_isAtOrBelow hp] at h
      obtain ⟨top, servlet, rest, hf, hd, hmax, rfl⟩ := ih hl h
      have hne : e.1 ≠ top := by
        rintro rfl
        exact hp hd.isAtOrBelow
      refine ⟨top, servlet, rest, by simpa [Table.find?, hne] using hf, hd, ?_, rfl⟩
      intro f hf hfp
      rcases List.mem_cons.1 hf with rfl | hf
      · exact absurd hfp hp
      · exact hmax f hf hfp

/-! ### The four stages of a look-up -/

section Stages

variable {t : MappingTable} {R : List (UrlPattern × String)} {path : String} {m : MappingMatch}

/-- In a table that represents `R`, `matchExact?` finds the servlet of the path itself. -/
theorem Represents.matchExact?_eq_some_iff (h : Represents t R) : t.matchExact? path = some m ↔
    ∃ servlet, (.exact path, servlet) ∈ R ∧ m = ⟨servlet, .exact path, path, none⟩ := by
  simp only [matchExact?, Option.map_eq_some_iff, h.owner, owner?, eq_comm (a := m)]

/-- `matchExact?` finds nothing if and only if `R` has no such pattern. -/
theorem Represents.matchExact?_eq_none_iff (h : Represents t R) :
    t.matchExact? path = none ↔ ∀ servlet, (.exact path, servlet) ∉ R := by
  rw [matchExact?, Option.map_eq_none_iff, Option.eq_none_iff_forall_ne_some]
  simp only [h.owner, owner?, ne_eq]

/-- The entries for paths with sub-paths are the patterns of that shape. -/
theorem Represents.exists_mem_below_iff (h : Represents t R) {top : String} :
    (∃ e ∈ t.below, e.1 = top) ↔ ∃ servlet, (.below top, servlet) ∈ R := by
  simp only [h.owner, owner?]
  rw [← Option.isSome_iff_exists, Option.isSome_iff_ne_none, ne_eq, Table.find?_eq_none_iff,
    Classical.not_not, List.mem_map]

/-- `matchBelow?` finds nothing if and only if no pattern of `R` lies above the path. -/
theorem Represents.matchBelow?_eq_none_iff (h : Represents t R) : matchBelow? path t.below = none ↔
    ∀ top servlet, (.below top, servlet) ∈ R → ¬ IsAtOrBelow top path := by
  rw [MappingTable.matchBelow?_eq_none_iff]
  constructor
  · intro hn top servlet hm
    obtain ⟨e, he, rfl⟩ := h.exists_mem_below_iff.2 ⟨servlet, hm⟩
    exact hn e he
  · intro hn e he
    obtain ⟨servlet, hm⟩ := h.exists_mem_below_iff.1 ⟨e, he, rfl⟩
    exact hn e.1 servlet hm

/-- `matchBelow?` finds the longest pattern of `R` that lies above the path. -/
theorem Represents.matchBelow?_eq_some_iff (h : Represents t R) : matchBelow? path t.below = some m ↔
    ∃ top servlet rest, (.below top, servlet) ∈ R ∧ DividesAt top path rest ∧
      (∀ top' s, (.below top', s) ∈ R → IsAtOrBelow top' path → top'.length ≤ top.length) ∧
      m = ⟨servlet, .below top, top, rest⟩ := by
  constructor
  · intro hm
    obtain ⟨top, servlet, rest, hf, hd, hmax, rfl⟩ := exists_of_matchBelow?_eq_some h.sorted hm
    refine ⟨top, servlet, rest, (h.owner _ _).2 hf, hd, ?_, rfl⟩
    intro top' s hs hp
    obtain ⟨e, he, rfl⟩ := h.exists_mem_below_iff.2 ⟨s, hs⟩
    obtain ⟨rest', hd'⟩ := hp.exists_dividesAt
    exact hd'.length_le_of_utf8ByteSize_le hd (hmax e he hp)
  · rintro ⟨top, servlet, rest, hmem, hd, hmax, rfl⟩
    cases hm : matchBelow? path t.below with
    | none => exact absurd hd.isAtOrBelow (h.matchBelow?_eq_none_iff.1 hm top servlet hmem)
    | some m =>
      -- `top'` is as long as `top` and both lie above the path, hence they are equal.
      obtain ⟨top', servlet', rest', hf, hd', hmax', rfl⟩ := exists_of_matchBelow?_eq_some h.sorted hm
      have hmem' : (.below top', servlet') ∈ R := (h.owner _ _).2 hf
      obtain ⟨e, he, rfl⟩ := h.exists_mem_below_iff.2 ⟨servlet, hmem⟩
      have hle := hd.length_le_of_utf8ByteSize_le hd' (hmax' e he hd.isAtOrBelow)
      have hge := hmax top' servlet' hmem' hd'.isAtOrBelow
      obtain rfl := hd'.eq_of_length_eq hd (Nat.le_antisymm hge hle)
      rw [h.servlet_unique hmem' hmem, hd'.below_unique hd]

/-- `matchExtension?` finds the servlet of the path's extension. -/
theorem Represents.matchExtension?_eq_some_iff (h : Represents t R) : t.matchExtension? path = some m ↔
    ∃ ext servlet, (.extension ext, servlet) ∈ R ∧ HasExtension path ext ∧
      m = ⟨servlet, .extension ext, path, none⟩ := by
  simp only [matchExtension?, Option.bind_eq_bind, Option.bind_eq_some_iff,
    UrlPattern.extensionOf?_eq_some_iff, h.owner, owner?, Option.some.injEq]
  constructor
  · rintro ⟨ext, he, servlet, hs, rfl⟩
    exact ⟨ext, servlet, hs, he, rfl⟩
  · rintro ⟨ext, servlet, hs, he, rfl⟩
    exact ⟨ext, he, servlet, hs, rfl⟩

/-- `matchExtension?` finds nothing if and only if `R` has no pattern for an extension of the path. -/
theorem Represents.matchExtension?_eq_none_iff (h : Represents t R) : t.matchExtension? path = none ↔
    ∀ ext servlet, (.extension ext, servlet) ∈ R → ¬ HasExtension path ext := by
  rw [Option.eq_none_iff_forall_ne_some]
  constructor
  · intro hn ext servlet hs he
    exact hn _ (h.matchExtension?_eq_some_iff.2 ⟨ext, servlet, hs, he, rfl⟩)
  · intro hn m hm
    obtain ⟨ext, servlet, hs, he, -⟩ := h.matchExtension?_eq_some_iff.1 hm
    exact hn ext servlet hs he

/-- `matchDefault?` finds the servlet of the default. -/
theorem Represents.matchDefault?_eq_some_iff (h : Represents t R) : t.matchDefault? path = some m ↔
    ∃ servlet, (.default, servlet) ∈ R ∧ m = ⟨servlet, .default, path, none⟩ := by
  simp only [matchDefault?, Option.map_eq_some_iff, h.owner, owner?, eq_comm (a := m)]

/-- `matchDefault?` finds nothing if and only if `R` has no default. -/
theorem Represents.matchDefault?_eq_none_iff (h : Represents t R) :
    t.matchDefault? path = none ↔ ∀ servlet, (.default, servlet) ∉ R := by
  rw [matchDefault?, Option.map_eq_none_iff, Option.eq_none_iff_forall_ne_some]
  simp only [h.owner, owner?, ne_eq]

/-! ### The look-up -/

/-- Together: a table answers by `Selects`, each kind of match being tried where those before it found nothing. -/
theorem Represents.map?_eq_some_iff (h : Represents t R) :
    t.map? path = some m ↔ Selects R (rooted path) m := by
  -- Each of the four searches is put in terms of `R`, with what the ones before it did not find.
  simp only [map?, Option.or_eq_some_iff, h.matchExact?_eq_some_iff, h.matchExact?_eq_none_iff,
    h.matchBelow?_eq_some_iff, h.matchBelow?_eq_none_iff, h.matchExtension?_eq_some_iff,
    h.matchExtension?_eq_none_iff, h.matchDefault?_eq_some_iff]
  constructor
  · rintro (⟨servlet, hs, rfl⟩ | ⟨hx, ⟨top, servlet, rest, hs, hd, hmax, rfl⟩ |
      ⟨hb, ⟨ext, servlet, hs, he, rfl⟩ | ⟨he, servlet, hs, rfl⟩⟩⟩)
    · exact .exact hs
    · exact .below hx hs hd hmax
    · exact .extension hx hb hs he
    · exact .default hx hb he hs
  · intro hm
    cases hm with
    | exact hs => exact .inl ⟨_, hs, rfl⟩
    | below hx hs hd hmax => exact .inr ⟨hx, .inl ⟨_, _, _, hs, hd, hmax, rfl⟩⟩
    | extension hx hb hs he => exact .inr ⟨hx, .inr ⟨hb, .inl ⟨_, _, hs, he, rfl⟩⟩⟩
    | default hx hb he hs => exact .inr ⟨hx, .inr ⟨hb, .inr ⟨he, _, hs, rfl⟩⟩⟩

/-- It has no answer if and only if none of its patterns covers the path, one kind for each step of `map?`. -/
theorem Represents.map?_eq_none_iff (h : Represents t R) :
    t.map? path = none ↔ ∀ e ∈ R, e.1.covers (rooted path) = false := by
  -- `map?` finds nothing where none of the four matches does.
  simp only [map?, Option.or_eq_none_iff, h.matchExact?_eq_none_iff, h.matchBelow?_eq_none_iff,
    h.matchExtension?_eq_none_iff, h.matchDefault?_eq_none_iff]
  constructor
  · rintro ⟨hx, hb, he, hd⟩ ⟨p, servlet⟩ hs
    rw [Bool.eq_false_iff]
    intro hc
    -- A pattern that covers the path would have been found by the match of its kind.
    cases p with
    | exact q =>
      obtain rfl := UrlPattern.covers_exact_iff.1 hc
      exact hx servlet hs
    | below top => exact hb top servlet hs (UrlPattern.covers_below_iff.1 hc)
    | extension ext => exact he ext servlet hs (UrlPattern.covers_extension_iff.1 hc)
    | default => exact hd servlet hs
  · intro hn
    have hn : ∀ p servlet, (p, servlet) ∈ R → ¬ p.covers (rooted path) = true := by
      intro p servlet hs hc
      simp [hn _ hs] at hc
    refine ⟨fun s hs => ?_, fun top s hs hp => ?_, fun ext s hs he => ?_, fun s hs => ?_⟩
    · exact hn _ s hs (UrlPattern.covers_exact_iff.2 rfl)
    · exact hn _ s hs (UrlPattern.covers_below_iff.2 hp)
    · exact hn _ s hs (UrlPattern.covers_extension_iff.2 he)
    · exact hn _ s hs (UrlPattern.covers_default _)

/-- So tables that represent the same patterns give the same answers. -/
theorem Represents.map?_eq {t' : MappingTable} (h : Represents t R) (h' : Represents t' R) (path : String) :
    t.map? path = t'.map? path := by
  apply Option.ext
  intro m
  rw [h.map?_eq_some_iff, h'.map?_eq_some_iff]

end Stages

/-! ### After any registrations -/

/-- A registration that is refused (`h`) may as well be left out. -/
theorem registerAll_append_of_error {t : MappingTable} {l : List Registration} {e : Registration}
    {err : MappingError} (h : (t.registerAll l).add e.1 e.2 = .error err) (later : List Registration) :
    t.registerAll (l ++ e :: later) = t.registerAll (l ++ later) := by
  rw [registerAll_append, registerAll_append, registerAll_cons, register_of_error h]

/-- Registrations without conflicts (`hl`) leave the same patterns in every order (`hm`). -/
theorem represents_registerAll_of_mem_iff {l m : List Registration} (hl : ConflictFree l)
    (hm : ∀ e, e ∈ m ↔ e ∈ l) : Represents (empty.registerAll m) (empty.registered l) := by
  have hm' : ConflictFree m := fun e he f hf => hl e ((hm e).1 he) f ((hm f).1 hf)
  refine (represents_registerAll m).congr ?_
  rintro ⟨p, servlet⟩
  rw [mem_registered_iff hm', mem_registered_iff hl]
  simp only [hm]

/-- **Precedence.** After any sequence of registrations (`history`) a table answers every path by the rule of
precedence, `Selects`, among the patterns that were accepted:

* it has an answer if and only if one of them covers the path;
* a registration that is refused changes no later answer;
* registrations without conflicts may come in any order. -/
theorem map?_registerAll (history : List Registration) (path : String) :
    (∀ m, (empty.registerAll history).map? path = some m ↔
      Selects (empty.registered history) (rooted path) m) ∧
    ((empty.registerAll history).map? path ≠ none ↔
      ∃ e ∈ empty.registered history, e.1.covers (rooted path) = true) ∧
    (∀ (e : Registration) (err : MappingError) (later : List Registration),
      (empty.registerAll history).add e.1 e.2 = .error err →
        (empty.registerAll (history ++ e :: later)).map? path
          = (empty.registerAll (history ++ later)).map? path) ∧
    (∀ other : List Registration, ConflictFree history → (∀ e, e ∈ other ↔ e ∈ history) →
      (empty.registerAll other).map? path = (empty.registerAll history).map? path) := by
  have h := represents_registerAll history
  refine ⟨fun m => h.map?_eq_some_iff, ?_, ?_, ?_⟩
  · rw [ne_eq, h.map?_eq_none_iff]
    simp
  · intro e err later he
    rw [registerAll_append_of_error he]
  · intro other hl hm
    exact (represents_registerAll_of_mem_iff hl hm).map?_eq h path

/-- Two nested prefixes, an extension and a registration that is refused, in two orders. -/
theorem map?_registerAll_nested :
    ConflictFree [("/a/*", "x"), ("/a/b/*", "y"), ("*.do", "z")] ∧
    (∀ e, e ∈ [("*.do", "z"), ("/a/b/*", "y"), ("/a/*", "x")] ↔
      e ∈ [("/a/*", "x"), ("/a/b/*", "y"), ("*.do", "z")]) ∧
    (empty.registerAll [("*.do", "z"), ("/a/b/*", "y"), ("/a/*", "x")]).map? "/a/b/c.do"
      = some ⟨"y", .below "/a/b", "/a/b", some "/c.do"⟩ ∧
    (empty.registerAll [("/a/*", "x"), ("/a/b/*", "y"), ("*.do", "z")]).add "/a/b/*" "x"
      = .error (.conflict "/a/b/*" "y") ∧
    (empty.registerAll [("/a/*", "x"), ("/a/b/*", "y"), ("*.do", "z"), ("/a/b/*", "x"), ("/", "w")]).map?
      "/a/b/c.do" = some ⟨"y", .below "/a/b", "/a/b", some "/c.do"⟩ := by
  have hfree : ConflictFree [("/a/*", "x"), ("/a/b/*", "y"), ("*.do", "z")] := by
    have hx : UrlPattern.parse "/a/*" = .ok (.below "/a") := rfl
    have hy : UrlPattern.parse "/a/b/*" = .ok (.below "/a/b") := rfl
    have hz : UrlPattern.parse "*.do" = .ok (.extension "do") := rfl
    intro e he f hf p hep hfp
    simp only [List.mem_cons, List.not_mem_nil, or_false] at he hf
    rcases he with rfl | rfl | rfl <;> rcases hf with rfl | rfl | rfl <;> simp_all
  have hmem : ∀ e, e ∈ [("*.do", "z"), ("/a/b/*", "y"), ("/a/*", "x")] ↔
      e ∈ [("/a/*", "x"), ("/a/b/*", "y"), ("*.do", "z")] := by
    intro e
    show e ∈ [("/a/*", "x"), ("/a/b/*", "y"), ("*.do", "z")].reverse ↔ _
    exact List.mem_reverse
  have herr : (empty.registerAll [("/a/*", "x"), ("/a/b/*", "y"), ("*.do", "z")]).add "/a/b/*" "x"
      = .error (.conflict "/a/b/*" "y") := rfl
  have h := map?_registerAll [("/a/*", "x"), ("/a/b/*", "y"), ("*.do", "z")] "/a/b/c.do"
  -- The last conjunct of the theorem reverses the order, the one before it drops the refused registration.
  refine ⟨hfree, hmem, ?_, herr, ?_⟩
  · rw [h.2.2.2 _ hfree hmem]
    rfl
  · have := h.2.2.1 ("/a/b/*", "x") _ [("/", "w")] herr
    exact this.trans rfl

end MappingTable

end ServletContainer
