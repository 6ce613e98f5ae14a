import ServletContainer.Proofs.Application.Building
import ServletContainer.Proofs.Routing.Precedence

namespace ServletContainer

/-!
# Where the paths of an application lead

The table of an application that was built is made of the patterns of its servlets. So whatever path is mapped leads
to one of them.

* `Blueprint.registrations` — the patterns of all servlets, in order.
* `Blueprint.mapper_of_build` — the table is what registering them makes.
* `Blueprint.exists_servlet_of_map?` — a path that is mapped leads to a servlet of the application.
-/

/-! ### Registering servlets -/

/-- The patterns of a servlet, as `MappingTable.registerAll` takes them. -/
def ServletRegistration.registrations (s : ServletRegistration) : List Registration :=
  s.patterns.map fun p => (p, s.servlet.name)

/-- Where `addPatterns` succeeds, it is `registerAll`, which goes on after a refusal too. -/
theorem registerAll_of_addPatterns {servlet : String} {patterns : List String} {t t' : MappingTable}
    (h : addPatterns servlet patterns t = .ok t') : t' = t.registerAll (patterns.map fun p => (p, servlet)) := by
  induction patterns generalizing t with
  | nil => exact (Except.ok.inj h).symm
  | cons p r ih =>
    rw [addPatterns] at h
    split at h
    · cases h
    · next u hu =>
      have hregister : t.register (p, servlet) = u := by simp [MappingTable.register, hu]
      rw [List.map_cons, MappingTable.registerAll_cons, hregister]
      exact ih h

/-- So is `addServlets`, of the patterns of all servlets in order. -/
theorem registerAll_of_addServlets {seen : List String} {l : List ServletRegistration} {t t' : MappingTable}
    (h : addServlets seen l t = .ok t') : t' = t.registerAll (l.flatMap ServletRegistration.registrations) := by
  induction l generalizing seen t with
  | nil => exact (Except.ok.inj h).symm
  | cons s r ih =>
    rw [addServlets] at h
    split at h
    · cases h
    · split at h
      · cases h
      · next u hu =>
        have hfirst : u = t.registerAll s.registrations := registerAll_of_addPatterns hu
        rw [List.flatMap_cons, MappingTable.registerAll_append, ← hfirst]
        exact ih h

/-! ### Applications -/

namespace Blueprint

variable {b : Blueprint} {a : Application}

/-- The `registrations` of all servlets of `b`, in order. -/
def registrations (b : Blueprint) : List Registration := b.servlets.flatMap ServletRegistration.registrations

/-- Thus the `mapper` of what was built is `registerAll` of its `registrations`. -/
theorem mapper_of_build (h : b.build = .ok a) : a.mapper = MappingTable.empty.registerAll b.registrations :=
  registerAll_of_addServlets (exists_of_build h).2.1

/-- Where `map?` of what was built gives a match, `servlet?` finds the servlet that it names. -/
theorem exists_servlet_of_map? (h : b.build = .ok a) {path : String} {m : MappingMatch}
    (hm : a.mapper.map? path = some m) : ∃ s, a.servlet? m.servletName = some s ∧ s.name = m.servletName := by
  obtain ⟨-, -, hservlets, -⟩ := exists_of_build h
  have hrepresents := MappingTable.represents_registerAll b.registrations
  rw [mapper_of_build h] at hm
  have hmem := (hrepresents.map?_eq_some_iff.1 hm).mem
  obtain ⟨e, he, -, hname⟩ := MappingTable.exists_of_mem_registered hmem
  obtain ⟨r, hr, he⟩ := List.mem_flatMap.1 he
  obtain ⟨p, -, rfl⟩ := List.mem_map.1 he
  -- `r.servlet` was registered with this pattern, so `servlet?` finds one of its name.
  have hregistered : r.servlet ∈ a.servlets := by
    rw [hservlets]
    exact List.mem_map_of_mem hr
  have hsome : (a.servlet? m.servletName).isSome := List.find?_isSome.2 ⟨r.servlet, hregistered, by simpa using hname⟩
  obtain ⟨s, hs⟩ := Option.isSome_iff_exists.1 hsome
  exact ⟨s, hs, by simpa using List.find?_some hs⟩

end Blueprint

end ServletContainer
