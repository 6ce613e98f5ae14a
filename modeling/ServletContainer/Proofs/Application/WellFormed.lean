import ServletContainer.Proofs.Application.Declarations
import ServletContainer.Proofs.Dispatch.Missing

namespace ServletContainer

/-!
# Well-formed blueprints

* `Blueprint.WellFormed` — what must hold of all that an application is made from, in whatever order it is checked.
* `Blueprint.sound_declarations_iff` — it holds if no declaration violates those in front of it.
* `Blueprint.build_spec` — just these can be built, the first violation of any other is what is reported, and what is
  built leads every path that is mapped to a servlet.
-/

namespace Declaration

/-- The name of a `.servlet`. -/
def servletName? : Declaration → Option String
  | .servlet name => some name
  | _ => none

/-- The name of a `.filter`. -/
def filterName? : Declaration → Option String
  | .filter name => some name
  | _ => none

/-- `servletName?` gives the name of a servlet's declaration, and of no other. -/
theorem servletName?_eq_some_iff {d : Declaration} {name : String} :
    servletName? d = some name ↔ d = .servlet name := by
  cases d <;> simp [servletName?]

/-- So does `filterName?` for filters. -/
theorem filterName?_eq_some_iff {d : Declaration} {name : String} :
    filterName? d = some name ↔ d = .filter name := by
  cases d <;> simp [filterName?]

section Named

variable {name? : Declaration → Option String} {named : String → Declaration}
  (hname : ∀ {d name}, name? d = some name ↔ d = named name)

include hname

/-- In a `Sound` list the names that `name?` reads are pairwise distinct, if to declare one twice `Violates` (`htwice`).
-/
theorem Sound.nodup {l : List Declaration} (h : Sound l)
    (htwice : ∀ {l name}, named name ∈ l → ∃ e, Violates l (named name) e) : (l.filterMap name?).Nodup := by
  induction h with
  | nil => exact List.nodup_nil
  | @concat l d _ hnone ih =>
    -- Only a declaration with a `name?` counts, and it would be a `Violates` if the name came before.
    cases hd : name? d with
    | none => simpa [hd] using ih
    | some name =>
      obtain rfl := hname.1 hd
      simp only [List.filterMap_append, List.filterMap_cons, hd, List.filterMap_nil]
      refine List.nodup_append.2 ⟨ih, List.nodup_singleton name, fun n hn m hm hnm => ?_⟩
      obtain ⟨d', hd', hn⟩ := List.mem_filterMap.1 hn
      obtain rfl := hname.1 hn
      rw [hnm, List.mem_singleton.1 hm] at hd'
      obtain ⟨e, hviolates⟩ := htwice hd'
      exact hnone e hviolates

/-- Where they are, none is declared before in the list. -/
theorem not_mem_of_nodup {earlier later : List Declaration} {name : String}
    (h : ((earlier ++ named name :: later).filterMap name?).Nodup) : named name ∉ earlier := by
  intro hmem
  rw [List.filterMap_append, List.filterMap_cons_some (hname.2 rfl)] at h
  exact (List.nodup_append.1 h).2.2 name (List.mem_filterMap.2 ⟨_, hmem, hname.2 rfl⟩) name List.mem_cons_self rfl

end Named

end Declaration

namespace Blueprint

variable {b : Blueprint}

/-- The names of the servlets of `b`. -/
def servletNames (b : Blueprint) : List String := b.servlets.map fun s => s.servlet.name

/-- Whether an application can be made from `b`. -/
structure WellFormed (b : Blueprint) : Prop where
  contextPath : IsContextPathText b.contextPath
  servlets : b.servletNames.Nodup
  /-- Every pattern has one of the shapes. -/
  shapes : ∀ s ∈ b.servlets, ∀ text ∈ s.patterns, ∃ q, UrlPattern.Denotes text q
  /-- No pattern, as it is read, belongs to two servlets. -/
  conflicts : ∀ s ∈ b.servlets, ∀ s' ∈ b.servlets, ∀ text ∈ s.patterns, ∀ text' ∈ s'.patterns, ∀ q,
    UrlPattern.Denotes text q → UrlPattern.Denotes text' q → s.servlet.name = s'.servlet.name
  filters : (b.filters.map Filter.name).Nodup
  /-- A mapping by name is one by the name of a servlet, or stands for all of them. -/
  mappings : ∀ f ∈ b.filters, ∀ m ∈ f.mappings, ∀ name, m.target = .servlet name →
    name = "*" ∨ name ∈ b.servletNames

/-! ### What is declared -/

/-- The `declarations` of the servlets of `b`. -/
def servletDeclarations (b : Blueprint) : List Declaration := b.servlets.flatMap ServletRegistration.declarations

theorem servlet_mem_servletDeclarations {name : String} :
    .servlet name ∈ b.servletDeclarations ↔ name ∈ b.servletNames := by
  simp [servletDeclarations, ServletRegistration.declarations, servletNames, eq_comm]

/-- No other part of `declarations` declares a servlet. -/
theorem servlet_mem_declarations {name : String} : .servlet name ∈ b.declarations ↔ name ∈ b.servletNames := by
  simp [declarations, ServletRegistration.declarations, Filter.declarations, servletNames, eq_comm]

theorem mapping_not_mem_servletDeclarations (filter : String) (m : FilterMapping) :
    .mapping filter m ∉ b.servletDeclarations := by
  simp [servletDeclarations, ServletRegistration.declarations]

theorem filter_not_mem_servletDeclarations (name : String) : .filter name ∉ b.servletDeclarations := by
  simp [servletDeclarations, ServletRegistration.declarations]

theorem contextPath_mem_declarations {path : String} : .contextPath path ∈ b.declarations ↔ path = b.contextPath := by
  simp [declarations, ServletRegistration.declarations, Filter.declarations]

theorem pattern_mem_declarations {text name : String} :
    .pattern text name ∈ b.declarations ↔ ∃ s ∈ b.servlets, text ∈ s.patterns ∧ s.servlet.name = name := by
  simp [declarations, ServletRegistration.declarations, Filter.declarations]

theorem mapping_mem_declarations {filter : String} {m : FilterMapping} :
    .mapping filter m ∈ b.declarations ↔ ∃ f ∈ b.filters, m ∈ f.mappings ∧ f.name = filter := by
  simp [declarations, ServletRegistration.declarations, Filter.declarations]

/-- `declarations` has the names of the servlets in order. -/
theorem filterMap_servletName? (b : Blueprint) :
    b.declarations.filterMap Declaration.servletName? = b.servletNames := by
  have hservlet (s : ServletRegistration) : s.declarations.filterMap Declaration.servletName? = [s.servlet.name] := by
    simp [ServletRegistration.declarations, Declaration.servletName?, Function.comp_def]
  have hfilter (f : Filter) : f.declarations.filterMap Declaration.servletName? = [] := by
    simp [Filter.declarations, Declaration.servletName?, List.filterMap_cons]
  rw [declarations, List.filterMap_cons_none rfl, List.filterMap_append, List.filterMap_flatMap,
    List.filterMap_flatMap, servletNames, List.map_eq_flatMap]
  simp [hservlet, hfilter]

/-- `declarations` has the names of the filters in order. -/
theorem filterMap_filterName? (b : Blueprint) :
    b.declarations.filterMap Declaration.filterName? = b.filters.map Filter.name := by
  have hservlet (s : ServletRegistration) : s.declarations.filterMap Declaration.filterName? = [] := by
    simp [ServletRegistration.declarations, Declaration.filterName?, List.filterMap_cons]
  have hfilter (f : Filter) : f.declarations.filterMap Declaration.filterName? = [f.name] := by
    simp [Filter.declarations, Declaration.filterName?, Function.comp_def]
  rw [declarations, List.filterMap_cons_none rfl, List.filterMap_append, List.filterMap_flatMap,
    List.filterMap_flatMap, List.map_eq_flatMap]
  simp [hservlet, hfilter]

/-! ### Sound declarations -/

open Declaration (Sound Violates FirstViolation Reports)

/-- If `declarations` are `Sound`, the blueprint is `WellFormed`: each condition is that of one kind of declaration. -/
theorem wellFormed_of_sound (h : Sound b.declarations) : b.WellFormed where
  -- Each condition fails only where a declaration violates, behind the ones before it (`Sound.split`).
  contextPath := by
    have hfirst : Sound ([] ++ .contextPath b.contextPath
      :: (b.servletDeclarations ++ b.filters.flatMap Filter.declarations)) := h
    by_contra hno
    exact hfirst.split.2 _ (.contextPath hno)
  servlets := by
    rw [← filterMap_servletName?]
    exact h.nodup Declaration.servletName?_eq_some_iff fun hmem => ⟨_, .servlet hmem⟩
  shapes s hs text htext := by
    obtain ⟨earlier, later, heq⟩ := List.append_of_mem (pattern_mem_declarations.2 ⟨s, hs, htext, rfl⟩)
    rw [heq] at h
    by_contra hnone
    exact h.split.2 _ (.shape (not_exists.1 hnone))
  conflicts s hs s' hs' text htext text' htext' q hq hq' :=
    h.servlet_unique (pattern_mem_declarations.2 ⟨s, hs, htext, rfl⟩)
      (pattern_mem_declarations.2 ⟨s', hs', htext', rfl⟩) hq hq'
  filters := by
    rw [← filterMap_filterName?]
    exact h.nodup Declaration.filterName?_eq_some_iff fun hmem => ⟨_, .filter hmem⟩
  mappings f hf m hm name htarget := by
    obtain ⟨earlier, later, heq⟩ := List.append_of_mem (mapping_mem_declarations.2 ⟨f, hf, hm, rfl⟩)
    by_contra hunknown
    rw [not_or] at hunknown
    have hsplit := heq ▸ h
    refine hsplit.split.2 _ (.mapping htarget hunknown.1 fun hmem => hunknown.2 ?_)
    exact servlet_mem_declarations.1 (heq ▸ List.mem_append_left _ hmem)

/-- All servlets are declared before the mappings of filters. -/
theorem servlet_mem_of_mapping {earlier later : List Declaration} {filter name : String} {m : FilterMapping}
    (heq : b.declarations = earlier ++ .mapping filter m :: later) (hname : name ∈ b.servletNames) :
    .servlet name ∈ earlier := by
  have hservlet : .servlet name ∈ .contextPath b.contextPath :: b.servletDeclarations :=
    List.mem_cons_of_mem _ (servlet_mem_servletDeclarations.2 hname)
  have hsplit : (.contextPath b.contextPath :: b.servletDeclarations) ++ b.filters.flatMap Filter.declarations
      = earlier ++ .mapping filter m :: later := heq
  rcases List.append_eq_append_iff.1 hsplit with ⟨between, rfl, -⟩ | ⟨between, hfront, hback⟩
  · exact List.mem_append_left _ hservlet
  · cases between with
    | nil =>
      rw [hfront, List.append_nil] at hservlet
      exact hservlet
    | cons d between =>
      -- The mapping would be one of `b.servletDeclarations`.
      obtain ⟨rfl, -⟩ := List.cons.inj hback
      have hmem : .mapping filter m ∈ .contextPath b.contextPath :: b.servletDeclarations := by simp [hfront]
      simp [mapping_not_mem_servletDeclarations] at hmem

/-- If it is `WellFormed`, its `declarations` are `Sound`, as none of them can be the first violation. -/
theorem sound_of_wellFormed (h : b.WellFormed) : Sound b.declarations := by
  rcases Declaration.sound_or_firstViolation b.declarations with hsound | ⟨e, earlier, d, later, heq, -, hviolates⟩
  · exact hsound
  · -- `WellFormed` excludes each constructor of `Violates`.
    exfalso
    have hmem : d ∈ b.declarations := by simp [heq]
    have hbefore {d' : Declaration} (hd' : d' ∈ earlier) : d' ∈ b.declarations := heq ▸ List.mem_append_left _ hd'
    cases hviolates with
    | contextPath hno =>
      obtain rfl := contextPath_mem_declarations.1 hmem
      exact hno h.contextPath
    | servlet hdup =>
      have hnodup := h.servlets
      rw [← filterMap_servletName?, heq] at hnodup
      exact Declaration.not_mem_of_nodup Declaration.servletName?_eq_some_iff hnodup hdup
    | shape hnone =>
      obtain ⟨s, hs, htext, -⟩ := pattern_mem_declarations.1 hmem
      obtain ⟨q, hq⟩ := h.shapes s hs _ htext
      exact hnone q hq
    | conflict hq hother hq' hne =>
      obtain ⟨s, hs, htext, rfl⟩ := pattern_mem_declarations.1 hmem
      obtain ⟨s', hs', htext', rfl⟩ := pattern_mem_declarations.1 (hbefore hother)
      exact hne (h.conflicts s' hs' s hs _ htext' _ htext _ hq' hq)
    | filter hdup =>
      have hnodup := h.filters
      rw [← filterMap_filterName?, heq] at hnodup
      exact Declaration.not_mem_of_nodup Declaration.filterName?_eq_some_iff hnodup hdup
    | mapping htarget hne hunknown =>
      obtain ⟨f, hf, hm, -⟩ := mapping_mem_declarations.1 hmem
      rcases h.mappings f hf _ hm _ htarget with hall | hname
      · exact hne hall
      · exact hunknown (servlet_mem_of_mapping heq hname)

theorem sound_declarations_iff : Sound b.declarations ↔ b.WellFormed := ⟨wellFormed_of_sound, sound_of_wellFormed⟩

/-! ### Building -/

/-- `build` `Reports` the `declarations`: it succeeds if and only if they are `Sound`, and its error is that of the
`FirstViolation`. -/
theorem reports_build (b : Blueprint) : Reports b.declarations (fun _ => True) b.build := by
  -- Each `Reports` goes on from the `Sound` declarations of those before it.
  rcases normalizeContextPath_cases b.contextPath with ⟨hpath, c, hc⟩ | ⟨hpath, hc⟩
  · have hfirst : Sound [.contextPath b.contextPath] := by
      refine Sound.concat .nil fun e hviolates => ?_
      cases hviolates with
      | contextPath hno => exact hno hpath
    have howns := Declaration.owns_empty.concat (d := .contextPath b.contextPath) (by simp)
    have hservlets : Reports ([.contextPath b.contextPath] ++ b.servletDeclarations) (fun _ => True)
        (addServlets [] b.servlets .empty) := Declaration.reports_addServlets hfirst howns (by simp) b.servlets
    cases hadd : addServlets [] b.servlets .empty with
    | error e =>
      rw [hadd] at hservlets
      simp only [build, hc, hadd]
      exact FirstViolation.append hservlets (b.filters.flatMap Filter.declarations)
    | ok mapper =>
      rw [hadd] at hservlets
      have hnames : (b.servlets.map ServletRegistration.servlet).map Servlet.name = b.servletNames := by
        rw [List.map_map]
        rfl
      have hfilters : Reports ([.contextPath b.contextPath] ++ b.servletDeclarations
          ++ b.filters.flatMap Filter.declarations) (fun _ => True) (checkFilters b.servletNames [] b.filters) :=
        Declaration.reports_checkFilters hservlets.1 (by simp [servlet_mem_servletDeclarations])
          (by simp [filter_not_mem_servletDeclarations]) b.filters
      cases hcheck : checkFilters b.servletNames [] b.filters with
      | error _ | ok _ =>
        rw [hcheck] at hfilters
        simp only [build, hc, hadd, hnames, hcheck]
        exact hfilters
  · simp only [build, hc]
    exact ⟨[], _, _, rfl, .nil, .contextPath hpath⟩

/-- **What can be built.** Whatever is registered in a blueprint `b`, in whatever order:

* `build` succeeds if and only if `b` is `WellFormed`: its context path is empty, a slash, or starts with a slash, does
  not end with one and has neither two slashes in a row nor any of four marks; no two servlets have the same name; every
  pattern has one of the shapes, and no pattern as it is read belongs to two servlets; no two filters have the same
  name; and every filter mapping by name stands for all servlets or has the name of one;
* otherwise its error is that of the `FirstViolation` of its `declarations`, the context path coming first, then each
  servlet and its patterns, and then each filter and its mappings;
* in an application `a` that is built, every path that is mapped leads to a servlet that was registered. So for no
  request does it matter what a dispatch would do about a target without a servlet, which is the answer `missing` of
  `serveWithinOr`. -/
theorem build_spec (b : Blueprint) :
    ((∃ a, b.build = .ok a) ↔ b.WellFormed) ∧
    (∀ e, b.build = .error e ↔ FirstViolation b.declarations e) ∧
    ∀ a, b.build = .ok a →
      (∀ path target, a.mapper.map? path = some target →
        ∃ s ∈ b.servlets, s.servlet.name = target.servletName ∧ a.servlet? target.servletName = some s.servlet) ∧
      ∀ missing limits timeout x,
        serveWithinOr missing limits timeout a x = serveWithin limits timeout a x := by
  have hreports := b.reports_build
  refine ⟨?_, fun e => ?_, fun a ha => ?_⟩
  · -- `reports_build` says what either outcome means; the other one is excluded by it.
    rw [← sound_declarations_iff]
    cases hbuild : b.build with
    | ok a =>
      rw [hbuild] at hreports
      exact ⟨fun _ => hreports.1, fun _ => ⟨a, rfl⟩⟩
    | error e =>
      rw [hbuild] at hreports
      exact ⟨fun ⟨_, ha⟩ => (by cases ha), fun hsound => absurd hsound hreports.not_sound⟩
  · cases hbuild : b.build with
    | ok a =>
      rw [hbuild] at hreports
      exact ⟨fun he => (by cases he), fun hfirst => absurd hreports.1 hfirst.not_sound⟩
    | error e' =>
      rw [hbuild] at hreports
      exact ⟨fun he => Except.error.inj he ▸ hreports, fun hfirst => congrArg _ (hreports.unique hfirst)⟩
  · -- By `exists_servlet_of_map?` what is mapped is registered, so the branch for a missing servlet is dead.
    have hlookup : ∀ path target, a.mapper.map? path = some target →
        ∃ s ∈ b.servlets, s.servlet.name = target.servletName ∧ a.servlet? target.servletName = some s.servlet := by
      intro path target ht
      obtain ⟨servlet, hs, hname⟩ := exists_servlet_of_map? ha ht
      have hmem := List.mem_of_find?_eq_some hs
      rw [(exists_of_build ha).2.2.1] at hmem
      obtain ⟨s, hreg, rfl⟩ := List.mem_map.1 hmem
      exact ⟨s, hreg, hname, hs⟩
    refine ⟨hlookup, fun missing limits timeout x => ?_⟩
    rw [serveWithinOr_eq]
    rintro target ⟨path, ht⟩
    obtain ⟨s, -, -, hs⟩ := hlookup path target ht
    exact Option.isSome_iff_exists.2 ⟨_, hs⟩

/-! ### A bookstore -/

namespace Bookstore

/-- A servlet that has nothing to do. -/
def idle (name : String) : Servlet := ⟨name, .finish, fun _ => none, false⟩

/-- A blueprint with patterns of all shapes, one of them given twice. -/
def books : Blueprint where
  contextPath := "/books"
  displayName := none
  servlets := [⟨idle "list", ["/list/*", "", "*.do", "/list/*"]⟩, ⟨idle "pages", ["/", "/list"]⟩]
  filters := [⟨"log", [⟨.servlet "*", []⟩, ⟨.servlet "pages", []⟩], (idle "log").component⟩]
  errorPages := []
  sessionConfig := .standard
  guard := none
  resources := none

/-- One with several faults, of which the first is a pattern of another servlet. -/
def faulty : Blueprint :=
  { books with
    servlets := [⟨idle "list", ["/list/*"]⟩, ⟨idle "pages", ["/", "/list/*", "list"]⟩, ⟨idle "list", []⟩]
    filters := [⟨"log", [⟨.servlet "none", []⟩], (idle "log").component⟩] }

/-- `books` is `WellFormed`, and a path that is mapped leads to one of its servlets. Of `faulty` the pattern of another
servlet is reported. -/
theorem build_spec_books :
    (∃ a, books.build = .ok a ∧ books.WellFormed ∧
      a.mapper.map? "/list/x.do" = some ⟨"list", .below "/list", "/list", some "/x.do"⟩ ∧
      ∃ s ∈ books.servlets, s.servlet.name = "list" ∧ a.servlet? "list" = some s.servlet) ∧
    FirstViolation faulty.declarations (.mapping (.conflict "/list/*" "list")) ∧ ¬ faulty.WellFormed := by
  refine ⟨⟨_, rfl, (build_spec books).1.1 ⟨_, rfl⟩, rfl, ((build_spec books).2.2 _ rfl).1 "/list/x.do" _ rfl⟩,
    ((build_spec faulty).2.1 _).1 rfl, fun hformed => ?_⟩
  obtain ⟨a, ha⟩ := (build_spec faulty).1.2 hformed
  cases ha

end Bookstore

end Blueprint

end ServletContainer
