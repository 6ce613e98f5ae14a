import Mathlib.Data.List.Induction
import ServletContainer.Proofs.Application.Mapped
import ServletContainer.Proofs.Routing.Shapes

namespace ServletContainer

/-!
# Applications that can be built

What an application is made from is declared piece by piece. A declaration may violate what was declared before it, or be
faulty in itself; the first one that does is the one that is reported.

* `IsContextPathText` — the texts that can be given as a context path; `normalizeContextPath_cases` has the checks.
* `Declaration`, `Blueprint.declarations` — what is declared, in the order of the checks.
* `Violates`, `Sound`, `FirstViolation` — a declaration that cannot be made after some others; declarations of which each
  one can be; and the error of the first that cannot.
* `Owns` — the invariant: a table has the patterns that were declared, each with its servlet.
* `Reports`, `Blueprint.reports_build` — what is checked is that the declarations are sound, and what is reported is the
  first violation.
-/

/-! ### Context paths -/

/-- Whether `p` can be given as a context path: `""` or `"/"` for the root, or a path that neither ends with a slash nor
has two slashes in a row, an asterisk, or one of the marks `?`, `;` and `#` that end paths and segments. -/
def IsContextPathText (p : String) : Prop :=
  p = "" ∨ p = "/" ∨
    (∃ rest, p = "/" ++ rest) ∧ (¬ ∃ front, p = front ++ "/") ∧ (¬ ∃ a b, p = a ++ "//" ++ b) ∧
      Avoids ['*', '?', ';', '#'] p

/-- `isContextPath` decides the third way to be an `IsContextPathText`. -/
theorem isContextPath_iff {p : String} : isContextPath p.toList = true ↔
    (∃ rest, p = "/" ++ rest) ∧ (¬ ∃ front, p = front ++ "/") ∧ (¬ ∃ a b, p = a ++ "//" ++ b) ∧
      Avoids ['*', '?', ';', '#'] p := by
  have hstarts : p.toList.head? = some '/' ↔ ∃ rest, p = "/" ++ rest := by
    rw [List.head?_eq_some_iff, Text.toList_surjective.exists]
    simp [← String.toList_inj]
  have hends : p.toList.getLast? = some '/' ↔ ∃ front, p = front ++ "/" := by
    rw [List.getLast?_eq_some_iff, Text.toList_surjective.exists]
    simp [← String.toList_inj]
  have hdouble : Text.occurs ['/', '/'] p.toList = true ↔ ∃ a b, p = a ++ "//" ++ b := by
    rw [Text.occurs_iff, List.IsInfix]
    simp [Text.toList_surjective.exists, ← String.toList_inj, eq_comm]
  have hmarks : Text.hasAny ['*', '?', ';', '#'] p.toList = true ↔ ¬ Avoids ['*', '?', ';', '#'] p := by
    simp only [Text.hasAny, List.any_eq_true, List.contains_iff_mem, Avoids, not_forall, not_not, exists_prop]
  simp only [isContextPath, Bool.and_eq_true, beq_iff_eq, bne_iff_ne, ne_eq, Bool.not_eq_true', Bool.eq_false_iff,
    hstarts, hends, hdouble, hmarks, not_not, and_assoc]

/-- `normalizeContextPath` accepts just what `IsContextPathText`, and its error carries the text as it was given. -/
theorem normalizeContextPath_cases (p : String) :
    (IsContextPathText p ∧ ∃ c, normalizeContextPath p = .ok c) ∨
      (¬ IsContextPathText p ∧ normalizeContextPath p = .error (.invalidContextPath p)) := by
  unfold normalizeContextPath IsContextPathText
  rw [← isContextPath_iff]
  by_cases hroot : p = "" ∨ p = "/"
  · rw [if_pos hroot, ← or_assoc]
    exact .inl ⟨.inl hroot, _, rfl⟩
  · rw [if_neg hroot, ← or_assoc]
    by_cases hpath : isContextPath p.toList = true
    · rw [if_pos hpath]
      exact .inl ⟨.inr hpath, _, rfl⟩
    · rw [if_neg hpath]
      exact .inr ⟨fun h => h.elim hroot hpath, rfl⟩

/-! ### Declarations -/

/-- A piece of what a `Blueprint` declares. -/
inductive Declaration where
  | contextPath (path : String)
  | servlet (name : String)
  /-- A pattern of a servlet. -/
  | pattern (text servlet : String)
  | filter (name : String)
  /-- A mapping of a filter. -/
  | mapping (filter : String) (m : FilterMapping)

/-- The `.servlet` of a registration, and then its patterns. -/
def ServletRegistration.declarations (s : ServletRegistration) : List Declaration :=
  .servlet s.servlet.name :: s.patterns.map fun p => .pattern p s.servlet.name

/-- The `.filter`, and then its mappings. -/
def Filter.declarations (f : Filter) : List Declaration := .filter f.name :: f.mappings.map fun m => .mapping f.name m

/-- The `.contextPath`, then the `declarations` of the servlets, and then those of the filters. -/
def Blueprint.declarations (b : Blueprint) : List Declaration :=
  .contextPath b.contextPath
    :: (b.servlets.flatMap ServletRegistration.declarations ++ b.filters.flatMap Filter.declarations)

namespace Declaration

/-- Whether a declaration cannot be made after the `earlier` ones, and the `ApplicationError` that tells why. -/
inductive Violates (earlier : List Declaration) : Declaration → ApplicationError → Prop
  | contextPath {p : String} : ¬ IsContextPathText p → Violates earlier (.contextPath p) (.invalidContextPath p)
  | servlet {name : String} : .servlet name ∈ earlier → Violates earlier (.servlet name) (.duplicateServlet name)
  | shape {text servlet : String} : (∀ q, ¬ UrlPattern.Denotes text q) →
    Violates earlier (.pattern text servlet) (.mapping (.invalidPattern text))
  /-- The pattern, as it is read, was declared for another servlet. -/
  | conflict {text servlet text' other : String} {q : UrlPattern} : UrlPattern.Denotes text q →
    .pattern text' other ∈ earlier → UrlPattern.Denotes text' q → other ≠ servlet →
    Violates earlier (.pattern text servlet) (.mapping (.conflict q.text other))
  | filter {name : String} : .filter name ∈ earlier → Violates earlier (.filter name) (.duplicateFilter name)
  | mapping {filter name : String} {m : FilterMapping} : m.target = .servlet name → name ≠ "*" →
    .servlet name ∉ earlier → Violates earlier (.mapping filter m) (.unknownServlet filter name)

/-- Whether no declaration of a list `Violates` those in front of it. -/
inductive Sound : List Declaration → Prop
  | nil : Sound []
  | concat {l : List Declaration} {d : Declaration} : Sound l → (∀ e, ¬ Violates l d e) → Sound (l ++ [d])

/-- Whether `e` is the error of the first declaration of `l` that `Violates` those in front of it. -/
def FirstViolation (l : List Declaration) (e : ApplicationError) : Prop :=
  ∃ earlier d later, l = earlier ++ d :: later ∧ Sound earlier ∧ Violates earlier d e

variable {l earlier later : List Declaration} {d : Declaration} {e : ApplicationError}

/-- The constructor `concat` read backwards. -/
theorem sound_concat_iff : Sound (l ++ [d]) ↔ Sound l ∧ ∀ e, ¬ Violates l d e := by
  constructor
  · intro h
    generalize hm : l ++ [d] = m at h
    cases h with
    | nil => simp at hm
    | concat hsound hnone =>
      obtain ⟨rfl, hd⟩ := List.append_inj' hm rfl
      obtain rfl := List.singleton_inj.1 hd
      exact ⟨hsound, hnone⟩
  · rintro ⟨hsound, hnone⟩
    exact .concat hsound hnone

/-- What stands in front of a declaration of a `Sound` list is `Sound`, and the declaration does not violate it. -/
theorem Sound.split (h : Sound (earlier ++ d :: later)) : Sound earlier ∧ ∀ e, ¬ Violates earlier d e := by
  induction later using List.reverseRecOn with
  | nil => exact sound_concat_iff.1 h
  | append_singleton later d' ih =>
    rw [← List.cons_append, ← List.append_assoc] at h
    exact ih (sound_concat_iff.1 h).1

/-- In a `Sound` list a pattern is declared for one servlet only, however its text is written. -/
theorem Sound.servlet_unique (h : Sound l) {text text' servlet other : String} {q : UrlPattern}
    (hmem : .pattern text servlet ∈ l) (hmem' : .pattern text' other ∈ l) (hq : UrlPattern.Denotes text q)
    (hq' : UrlPattern.Denotes text' q) : servlet = other := by
  induction h with
  | nil => cases hmem
  | concat _ hnone ih =>
    by_contra hne
    rw [List.mem_append, List.mem_singleton] at hmem hmem'
    -- Whichever of the two comes last would be a `Violates` of the other one.
    rcases hmem with hmem | rfl
    · rcases hmem' with hmem' | rfl
      · exact hne (ih hmem hmem')
      · exact hnone _ (.conflict hq' hmem hq hne)
    · rcases hmem' with hmem' | hd
      · exact hnone _ (.conflict hq hmem' hq' fun heq => hne heq.symm)
      · exact hne (Declaration.pattern.inj hd).2.symm

/-- A declaration `Violates` a `Sound` list with one error only. -/
theorem Violates.unique (hsound : Sound earlier) {e' : ApplicationError} (h : Violates earlier d e)
    (h' : Violates earlier d e') : e = e' := by
  cases h with
  | contextPath | servlet | filter =>
    cases h'
    rfl
  | shape hnone =>
    cases h' with
    | shape => rfl
    | conflict hq => exact absurd hq (hnone _)
  | conflict hq hmem hq₁ _ =>
    cases h' with
    | shape hnone => exact absurd hq (hnone _)
    | conflict hq' hmem' hq₂ _ =>
      -- The servlet that is named is the one that the pattern was declared for.
      obtain rfl := hq.unique hq'
      rw [hsound.servlet_unique hmem hmem' hq₁ hq₂]
  | mapping htarget =>
    cases h' with
    | mapping htarget' =>
      obtain rfl := FilterTarget.servlet.inj (htarget.symm.trans htarget')
      rfl

namespace FirstViolation

/-- What is declared behind the `FirstViolation` changes nothing of it. -/
theorem append (h : FirstViolation l e) (m : List Declaration) : FirstViolation (l ++ m) e := by
  obtain ⟨earlier, d, later, rfl, hsound, hviolates⟩ := h
  exact ⟨earlier, d, later ++ m, by simp, hsound, hviolates⟩

/-- A list with a `FirstViolation` is not `Sound`. -/
theorem not_sound (h : FirstViolation l e) : ¬ Sound l := by
  obtain ⟨earlier, d, later, rfl, -, hviolates⟩ := h
  exact fun hsound => hsound.split.2 e hviolates

/-- Its error is determined, as is its place. -/
theorem unique {e' : ApplicationError} (h : FirstViolation l e) (h' : FirstViolation l e') : e = e' := by
  obtain ⟨earlier, d, later, rfl, hsound, hviolates⟩ := h
  obtain ⟨earlier', d', later', heq, hsound', hviolates'⟩ := h'
  -- Neither of the two places that `heq` gives is in front of the other one.
  rcases List.append_eq_append_iff.1 heq with ⟨between, rfl, hrest⟩ | ⟨between, rfl, hrest⟩
  · cases between with
    | nil =>
      obtain ⟨rfl, -⟩ := List.cons.inj hrest
      rw [List.append_nil] at hviolates'
      exact hviolates.unique hsound hviolates'
    | cons _ between =>
      obtain ⟨rfl, -⟩ := List.cons.inj hrest
      exact absurd hviolates (hsound'.split.2 e)
  · cases between with
    | nil =>
      obtain ⟨rfl, -⟩ := List.cons.inj hrest
      rw [List.append_nil] at hviolates
      exact hviolates.unique hsound' hviolates'
    | cons _ between =>
      obtain ⟨rfl, -⟩ := List.cons.inj hrest
      exact absurd hviolates' (hsound.split.2 e')

end FirstViolation

/-- Every list is `Sound` or has a `FirstViolation`, by induction from its end. -/
theorem sound_or_firstViolation (l : List Declaration) : Sound l ∨ ∃ e, FirstViolation l e := by
  induction l using List.reverseRecOn with
  | nil => exact .inl .nil
  | append_singleton l d ih =>
    rcases ih with hsound | ⟨e, hfirst⟩
    · by_cases hnone : ∀ e, ¬ Violates l d e
      · exact .inl (.concat hsound hnone)
      · obtain ⟨e, hviolates⟩ := not_forall_not.1 hnone
        exact .inr ⟨e, l, d, [], rfl, hsound, hviolates⟩
    · exact .inr ⟨e, hfirst.append [d]⟩

/-! ### Checking declarations -/

/-- Whether a check accepts `l` just if it is `Sound`, with a result that has `post`, and reports the `FirstViolation`
otherwise. -/
def Reports {α : Type} (l : List Declaration) (post : α → Prop) : Except ApplicationError α → Prop
  | .ok a => Sound l ∧ post a
  | .error e => FirstViolation l e

/-- Whether `t` has the patterns that `l` declares: `owner?` gives the servlet of the declaration that `Denotes` the
pattern. -/
def Owns (l : List Declaration) (t : MappingTable) : Prop :=
  ∀ q servlet, t.owner? q = some servlet ↔ ∃ text, .pattern text servlet ∈ l ∧ UrlPattern.Denotes text q

variable {t : MappingTable}

theorem owns_empty : Owns [] .empty := by
  intro q servlet
  cases q <;> simp [MappingTable.empty, MappingTable.owner?, Table.find?]

/-- Declarations that are no patterns leave `Owns` as it is. -/
theorem Owns.concat (h : Owns l t) (hd : ∀ text servlet, d ≠ .pattern text servlet) : Owns (l ++ [d]) t := by
  intro q servlet
  rw [h q servlet]
  refine exists_congr fun text => and_congr_left fun _ => ?_
  have hne := (hd text servlet).symm
  simp [hne]

/-- `add` of a pattern to a table that `Owns` the declarations `l` succeeds if and only if its declaration violates
nothing in `l`, and then the table `Owns` it too. Otherwise its error is the one that `Violates` says. -/
theorem Owns.add_cases (h : Owns l t) (text servlet : String) :
    (∃ t', t.add text servlet = .ok t' ∧ (∀ e, ¬ Violates l (.pattern text servlet) e) ∧
      Owns (l ++ [.pattern text servlet]) t') ∨
    ∃ e, t.add text servlet = .error e ∧ Violates l (.pattern text servlet) (.mapping e) := by
  unfold MappingTable.add
  cases hparse : UrlPattern.parse text with
  | error e =>
    obtain ⟨hnone, rfl⟩ := UrlPattern.parse_eq_error_iff.1 hparse
    exact .inr ⟨_, rfl, .shape hnone⟩
  | ok q =>
    have hq := UrlPattern.parse_eq_ok_iff.1 hparse
    -- `Violates` asks for another owner, so only what `t.owner? q` answers can stand in the way.
    have hnone : (∀ other, t.owner? q = some other → other = servlet) →
        ∀ e, ¬ Violates l (.pattern text servlet) e := by
      intro howner e hviolates
      cases hviolates with
      | shape hno => exact hno q hq
      | @conflict _ _ text' other q' hq' hmem hother hne =>
        obtain rfl := hq.unique hq'
        exact hne (howner other ((h q other).2 ⟨text', hmem, hother⟩))
    -- What `name` owns behind the declaration is what it did before it, and `q` if it is `servlet`.
    have hmem (name : String) (p : UrlPattern) :
        (∃ text', .pattern text' name ∈ l ++ [.pattern text servlet] ∧ UrlPattern.Denotes text' p) ↔
          t.owner? p = some name ∨ name = servlet ∧ p = q := by
      rw [h p name]
      constructor
      · rintro ⟨text', hmem, hp⟩
        rcases List.mem_append.1 hmem with hmem | hmem
        · exact .inl ⟨text', hmem, hp⟩
        · obtain ⟨rfl, rfl⟩ := Declaration.pattern.inj (List.mem_singleton.1 hmem)
          exact .inr ⟨rfl, hp.unique hq⟩
      · rintro (⟨text', hmem, hp⟩ | ⟨rfl, rfl⟩)
        · exact ⟨text', List.mem_append_left _ hmem, hp⟩
        · exact ⟨text, by simp, hq⟩
    dsimp only
    cases howner : t.owner? q with
    | none =>
      refine .inl ⟨_, rfl, hnone (by simp [howner]), fun p name => ?_⟩
      rw [hmem, MappingTable.owner?_assign howner]
      by_cases hp : p = q
      · simp [hp, howner, eq_comm]
      · simp [hp]
    | some existing =>
      dsimp only
      by_cases hsame : existing = servlet
      · rw [if_pos hsame]
        refine .inl ⟨t, rfl, hnone (by simp [howner, hsame]), fun p name => ?_⟩
        rw [hmem]
        refine ⟨.inl, fun hor => hor.elim (fun hold => hold) ?_⟩
        rintro ⟨rfl, rfl⟩
        rw [howner, hsame]
      · rw [if_neg hsame]
        obtain ⟨text', hmem, hother⟩ := (h q existing).1 howner
        exact .inr ⟨_, rfl, .conflict hq hmem hother hsame⟩

/-- `addPatterns` `Reports` the declarations of the patterns behind `l`, by induction on them. -/
theorem reports_addPatterns (hsound : Sound l) (h : Owns l t) (servlet : String) (patterns : List String) :
    Reports (l ++ patterns.map fun p => .pattern p servlet) (Owns (l ++ patterns.map fun p => .pattern p servlet))
      (addPatterns servlet patterns t) := by
  induction patterns generalizing l t with
  | nil => simpa [addPatterns, Reports] using ⟨hsound, h⟩
  | cons p r ih =>
    rw [addPatterns, List.map_cons]
    rcases h.add_cases p servlet with ⟨t', hadd, hnone, ht'⟩ | ⟨e, hadd, hviolates⟩
    · rw [hadd, List.append_cons]
      exact ih (hsound.concat hnone) ht'
    · rw [hadd]
      exact ⟨l, _, _, rfl, hsound, hviolates⟩

/-- `addServlets` `Reports` the servlets with their patterns. The names that are `seen` are those declared in `l`. -/
theorem reports_addServlets {seen : List String} (hsound : Sound l) (h : Owns l t)
    (hseen : ∀ name, .servlet name ∈ l ↔ name ∈ seen) (servlets : List ServletRegistration) :
    Reports (l ++ servlets.flatMap ServletRegistration.declarations) (fun _ => True)
      (addServlets seen servlets t) := by
  induction servlets generalizing l seen t with
  | nil => simpa [addServlets, Reports] using hsound
  | cons s r ih =>
    rw [addServlets, List.flatMap_cons, ServletRegistration.declarations, List.cons_append]
    -- The name is looked up in `seen` before the patterns, so a name in use hides all that is wrong with these.
    by_cases hdup : s.servlet.name ∈ seen
    · rw [if_pos (List.contains_iff_mem.2 hdup)]
      exact ⟨l, _, _, rfl, hsound, .servlet ((hseen _).2 hdup)⟩
    · rw [if_neg (by rwa [List.contains_iff_mem]), List.append_cons, ← List.append_assoc]
      have hnew : Sound (l ++ [.servlet s.servlet.name]) := by
        refine hsound.concat fun e hviolates => ?_
        cases hviolates with
        | servlet hmem => exact hdup ((hseen _).1 hmem)
      have hpatterns := reports_addPatterns hnew (h.concat (by simp)) s.servlet.name s.patterns
      cases hadd : addPatterns s.servlet.name s.patterns t with
      | error e =>
        rw [hadd] at hpatterns
        exact hpatterns.append _
      | ok t' =>
        rw [hadd] at hpatterns
        refine ih hpatterns.1 hpatterns.2 fun name => ?_
        simp [hseen, or_comm]

variable {servlets : List String}

/-- `checkMappings` `Reports` the mappings of a filter, if `servlets` are the names declared in `l`. -/
theorem reports_checkMappings (hsound : Sound l) (hservlets : ∀ name, .servlet name ∈ l ↔ name ∈ servlets)
    (filter : String) (mappings : List FilterMapping) :
    Reports (l ++ mappings.map fun m => .mapping filter m) (fun _ => True) (checkMappings filter servlets mappings) := by
  induction mappings generalizing l with
  | nil => simpa [checkMappings, Reports] using hsound
  | cons m r ih =>
    have hrest (hnone : ∀ e, ¬ Violates l (.mapping filter m) e) : Reports
        (l ++ (m :: r).map fun m => .mapping filter m) (fun _ => True) (checkMappings filter servlets r) := by
      rw [List.map_cons, List.append_cons]
      exact ih (hsound.concat hnone) (by simpa using hservlets)
    rw [checkMappings]
    cases htarget : m.target with
    | url _ =>
      -- A `FilterMapping` holds patterns that were parsed before, and violates nothing.
      refine hrest fun e hviolates => ?_
      cases hviolates with
      | mapping hservlet => simp [htarget] at hservlet
    | servlet name =>
      dsimp only
      by_cases hknown : name = "*" ∨ name ∈ servlets
      · rw [if_pos (by rwa [List.contains_iff_mem])]
        refine hrest fun e hviolates => ?_
        cases hviolates with
        | mapping hservlet hne hunknown =>
          obtain rfl := FilterTarget.servlet.inj (htarget.symm.trans hservlet)
          exact hknown.elim hne fun hmem => hunknown ((hservlets _).2 hmem)
      · rw [if_neg (by rwa [List.contains_iff_mem])]
        rw [not_or, ← hservlets] at hknown
        exact ⟨l, _, _, rfl, hsound, .mapping htarget hknown.1 hknown.2⟩

/-- And `checkFilters` `Reports` the filters with their mappings. -/
theorem reports_checkFilters {seen : List String} (hsound : Sound l)
    (hservlets : ∀ name, .servlet name ∈ l ↔ name ∈ servlets) (hseen : ∀ name, .filter name ∈ l ↔ name ∈ seen)
    (filters : List Filter) :
    Reports (l ++ filters.flatMap Filter.declarations) (fun _ => True) (checkFilters servlets seen filters) := by
  induction filters generalizing l seen with
  | nil => simpa [checkFilters, Reports] using hsound
  | cons f r ih =>
    rw [checkFilters, List.flatMap_cons, Filter.declarations, List.cons_append]
    -- As in `reports_addServlets`, the name is checked first.
    by_cases hdup : f.name ∈ seen
    · rw [if_pos (List.contains_iff_mem.2 hdup)]
      exact ⟨l, _, _, rfl, hsound, .filter ((hseen _).2 hdup)⟩
    · rw [if_neg (by rwa [List.contains_iff_mem]), List.append_cons, ← List.append_assoc]
      have hnew : Sound (l ++ [.filter f.name]) := by
        refine hsound.concat fun e hviolates => ?_
        cases hviolates with
        | filter hmem => exact hdup ((hseen _).1 hmem)
      have hservlets' : ∀ name, .servlet name ∈ l ++ [.filter f.name] ↔ name ∈ servlets := by simpa using hservlets
      have hmappings := reports_checkMappings hnew hservlets' f.name f.mappings
      cases hcheck : checkMappings f.name servlets f.mappings with
      | error e =>
        rw [hcheck] at hmappings
        exact hmappings.append _
      | ok _ =>
        rw [hcheck] at hmappings
        refine ih hmappings.1 (by simpa using hservlets) fun name => ?_
        simp [hseen, or_comm]

end Declaration

end ServletContainer
