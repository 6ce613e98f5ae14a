import Mathlib.Data.List.Nodup
import ServletContainer.Application.Deployment

namespace ServletContainer

/-!
# What was checked of an application

* `IsNormalContextPath` — the texts that a context path can be of an application that was built;
  `normalizeContextPath_eq_ok_iff` tells which texts are normalized to which.
* `Blueprint.exists_of_build` — the checks that an application went through, and what it consists of.
* `Blueprint.nodup_of_build` — no two of its components are called the same.
-/

/-- Whether `c` is the normal form of a context path: empty, or with `isContextPath`. -/
def IsNormalContextPath (c : String) : Prop := c = "" ∨ isContextPath c.toList = true

/-- What `IsNormalContextPath` does not end with a slash. -/
theorem IsNormalContextPath.getLast?_ne {c : String} (h : IsNormalContextPath c) :
    c.toList.getLast? ≠ some '/' := by
  rcases h with rfl | h
  · simp
  · simp only [isContextPath, Bool.and_eq_true, bne_iff_ne] at h
    exact h.1.1.2

/-- So it is not the text `/`, whose normal form is empty. -/
theorem IsNormalContextPath.ne_slash {c : String} (h : IsNormalContextPath c) : c ≠ "/" := by
  rintro rfl
  exact h.getLast?_ne rfl

/-- `normalizeContextPath` gives `""` for `/`. Every other text that it accepts `IsNormalContextPath`, and is given back
as it is. -/
theorem normalizeContextPath_eq_ok_iff {path c : String} :
    normalizeContextPath path = .ok c ↔ (path = "/" ∧ c = "") ∨ (path = c ∧ IsNormalContextPath c) := by
  constructor
  · intro h
    unfold normalizeContextPath at h
    split at h
    · next hroot =>
      obtain rfl := Except.ok.inj h
      exact hroot.elim (fun hempty => .inr ⟨hempty, .inl rfl⟩) (fun hslash => .inl ⟨hslash, rfl⟩)
    · split at h
      · next hpath =>
        obtain rfl := Except.ok.inj h
        exact .inr ⟨rfl, .inr hpath⟩
      · cases h
  · rintro (⟨rfl, rfl⟩ | ⟨rfl, hnormal⟩)
    · rfl
    · -- The empty text takes the branch of the root, all others that of `isContextPath`.
      by_cases hempty : path = ""
      · rw [hempty]
        rfl
      · have hroot : ¬ (path = "" ∨ path = "/") := not_or.2 ⟨hempty, hnormal.ne_slash⟩
        rw [normalizeContextPath, if_neg hroot, if_pos (hnormal.resolve_left hempty)]

/-- So what it gives `IsNormalContextPath`. -/
theorem isNormalContextPath_of_normalize {path c : String} (h : normalizeContextPath path = .ok c) :
    IsNormalContextPath c := by
  obtain ⟨-, rfl⟩ | ⟨-, hnormal⟩ := normalizeContextPath_eq_ok_iff.1 h
  · exact .inl rfl
  · exact hnormal

/-! ### Names -/

/-- One more `a` whose name is not `seen`, in front of others whose names are neither `seen` nor that of `a`. -/
theorem nodup_map_cons {α : Type} {name : α → String} {a : α} {r : List α} {seen : List String}
    (hnew : name a ∉ seen) (hrest : (r.map name).Nodup ∧ ∀ b ∈ r, name b ∉ name a :: seen) :
    ((a :: r).map name).Nodup ∧ ∀ b ∈ a :: r, name b ∉ seen := by
  constructor
  · refine List.nodup_cons.2 ⟨fun hmem => ?_, hrest.1⟩
    obtain ⟨b, hb, hname⟩ := List.mem_map.1 hmem
    exact hrest.2 b hb (List.mem_cons.2 (.inl hname))
  · refine List.forall_mem_cons.2 ⟨hnew, fun b hb hmem => ?_⟩
    exact hrest.2 b hb (List.mem_cons_of_mem _ hmem)

/-- Where `addServlets` succeeds, the names are pairwise distinct and none is `seen`, by induction on the servlets. -/
theorem nodup_of_addServlets {seen : List String} {l : List ServletRegistration} {t t' : MappingTable}
    (h : addServlets seen l t = .ok t') :
    (l.map fun s => s.servlet.name).Nodup ∧ ∀ s ∈ l, s.servlet.name ∉ seen := by
  induction l generalizing seen t with
  | nil => simp
  | cons s r ih =>
    rw [addServlets] at h
    split at h
    · cases h
    · next hnew =>
      split at h
      · cases h
      · exact nodup_map_cons (by simpa using hnew) (ih h)

/-- Where `checkFilters` succeeds, so are the names of the filters. -/
theorem nodup_of_checkFilters {servlets seen : List String} {l : List Filter}
    (h : checkFilters servlets seen l = .ok ()) : (l.map Filter.name).Nodup ∧ ∀ f ∈ l, f.name ∉ seen := by
  induction l generalizing seen with
  | nil => simp
  | cons f r ih =>
    rw [checkFilters] at h
    split at h
    · cases h
    · next hnew =>
      split at h
      · cases h
      · exact nodup_map_cons (by simpa using hnew) (ih h)

/-! ### Building -/

namespace Blueprint

variable {b : Blueprint} {a : Application}

/-- What `build` gives has passed its three checks, and consists of what was registered. -/
theorem exists_of_build (h : b.build = .ok a) :
    normalizeContextPath b.contextPath = .ok a.contextPath ∧ addServlets [] b.servlets .empty = .ok a.mapper ∧
      a.servlets = b.servlets.map ServletRegistration.servlet ∧
      checkFilters (a.servlets.map Servlet.name) [] a.filters = .ok () ∧ a.filters = b.filters := by
  unfold build at h
  -- `normalizeContextPath`, `addServlets` and `checkFilters` in order; only if none fails is there an application.
  cases hpath : normalizeContextPath b.contextPath with
  | error e =>
    rw [hpath] at h
    cases h
  | ok c =>
    rw [hpath] at h
    cases hservlets : addServlets [] b.servlets .empty with
    | error e =>
      simp only [hservlets] at h
      cases h
    | ok mapper =>
      cases hfilters :
          checkFilters ((b.servlets.map ServletRegistration.servlet).map Servlet.name) [] b.filters with
      | error e =>
        simp only [hservlets, hfilters] at h
        cases h
      | ok u =>
        simp only [hservlets, hfilters] at h
        obtain rfl := Except.ok.inj h
        exact ⟨rfl, rfl, rfl, hfilters, rfl⟩

theorem isNormalContextPath_of_build (h : b.build = .ok a) : IsNormalContextPath a.contextPath :=
  isNormalContextPath_of_normalize (exists_of_build h).1

/-- Its components are told apart by kind and name. -/
theorem nodup_of_build (h : b.build = .ok a) : (a.components.map Prod.fst).Nodup := by
  obtain ⟨-, hmapper, hservlets, hfilters, -⟩ := exists_of_build h
  have hservletNames : (a.servlets.map Servlet.name).Nodup := by
    rw [hservlets, List.map_map]
    exact (nodup_of_addServlets hmapper).1
  have hfilterNames := (nodup_of_checkFilters hfilters).1
  rw [Application.components, List.map_append, List.map_map, List.map_map, List.nodup_append]
  refine ⟨?_, ?_, ?_⟩
  · exact List.Nodup.of_map ComponentRef.name (by rw [List.map_map]; exact hservletNames)
  · exact List.Nodup.of_map ComponentRef.name (by rw [List.map_map]; exact hfilterNames)
  · -- A servlet and a filter may have the same name, but their `ComponentRef` differs in kind.
    intro c hc c' hc'
    obtain ⟨s, -, rfl⟩ := List.mem_map.1 hc
    obtain ⟨f, -, rfl⟩ := List.mem_map.1 hc'
    simp

end Blueprint

/-! ### Applications that serve nothing -/

/-- A blueprint of the `servlets` at `contextPath`, which are mapped to nothing and have no filters. -/
def Blueprint.ofServlets (contextPath : String) (servlets : List Servlet) : Blueprint where
  contextPath := contextPath
  displayName := none
  servlets := servlets.map fun s => ⟨s, []⟩
  filters := []
  errorPages := []
  sessionConfig := .standard
  guard := none
  resources := none

/-- The application that `Blueprint.ofServlets` describes, at a `contextPath` in normal form. -/
def Application.ofServlets (contextPath : String) (servlets : List Servlet) : Application where
  contextPath := contextPath
  displayName := shownName none contextPath
  servlets := servlets
  filters := []
  mapper := .empty
  errorPages := .empty
  sessionConfig := .standard
  guard := none
  resources := none

/-- `addServlets` of servlets without patterns succeeds if their names are pairwise distinct and none is `seen`, and
leaves the table as it is. -/
theorem addServlets_of_nodup {seen : List String} {servlets : List Servlet} (t : MappingTable)
    (hnodup : (servlets.map Servlet.name).Nodup) (hnew : ∀ s ∈ servlets, s.name ∉ seen) :
    addServlets seen (servlets.map fun s => ⟨s, []⟩) t = .ok t := by
  induction servlets generalizing seen with
  | nil => rfl
  | cons s r ih =>
    obtain ⟨hfirst, hrest⟩ := List.nodup_cons.1 hnodup
    have hs : ¬ seen.contains s.name = true := by simpa using hnew s List.mem_cons_self
    rw [List.map_cons, addServlets, if_neg hs]
    -- By `hfirst` no name that is left is that of `s`.
    refine ih hrest fun s' hs' hmem => ?_
    rcases List.mem_cons.1 hmem with hname | hmem
    · exact hfirst (hname ▸ List.mem_map_of_mem hs')
    · exact hnew s' (List.mem_cons_of_mem _ hs') hmem

/-- So `ofServlets` can be built under every path that `normalizeContextPath` accepts (`hpath`). -/
theorem Blueprint.build_ofServlets {path c : String} {servlets : List Servlet}
    (hpath : normalizeContextPath path = .ok c) (hnodup : (servlets.map Servlet.name).Nodup) :
    (ofServlets path servlets).build = .ok (.ofServlets c servlets) := by
  have hservlets : addServlets [] (servlets.map fun s => ⟨s, []⟩) .empty = .ok .empty :=
    addServlets_of_nodup .empty hnodup nofun
  have hsame : (servlets.map fun s => (⟨s, []⟩ : ServletRegistration)).map ServletRegistration.servlet
      = servlets := by
    simp [Function.comp_def]
  simp only [build, ofServlets, hpath, hservlets, hsame]
  rfl

end ServletContainer
