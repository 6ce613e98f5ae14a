import ServletContainer.Proofs.Routing.Precedence

namespace ServletContainer

/-!
# What a match is for

A path that is mapped is matched in one of four ways. In each of them the pattern covers the path that the table reads,
and the path divides at the part that the pattern names.

* `MappingMatch.IsFor` — a match and a path that belong together.
* `MappingTable.isFor_of_map?` — every match that a table gives belongs to its path.
* `MappingMatch.IsFor.path_eq` — the parts of a match, put together again, are the path.
-/

/-- Whether `m` belongs to `path`: its pattern covers it, and it divides at the part that the pattern names. -/
structure MappingMatch.IsFor (m : MappingMatch) (path : String) : Prop where
  covers : m.pattern.covers path = true
  divides : DividesAt m.servletPath path m.pathInfo

namespace MappingTable

variable {t : MappingTable} {path : String} {m : MappingMatch}

/-- A match with paths above (`h`) belongs to its path: it is the first of `l` that the path is at or below. -/
theorem isFor_of_matchBelow? {l : List (String × String)} (h : matchBelow? path l = some m) : m.IsFor path := by
  induction l with
  | nil => simp [matchBelow?] at h
  | cons e l ih =>
    by_cases hp : IsAtOrBelow e.1 path
    · obtain ⟨rest, hd⟩ := hp.exists_dividesAt
      have hm : matchBelow? path (e :: l) = some ⟨e.2, .below e.1, e.1, rest⟩ := matchBelow?_cons_of_dividesAt hd l
      obtain rfl := Option.some.inj (hm.symm.trans h)
      exact ⟨UrlPattern.covers_below_iff.2 hp, hd⟩
    · rw [matchBelow?_cons_of_not_isAtOrBelow hp] at h
      exact ih h

/-- A match that `map?` gives (`h`) belongs to the path that the table reads. One case for each kind of pattern. -/
theorem isFor_of_map? (h : t.map? path = some m) : m.IsFor (rooted path) := by
  -- `map?` tries the four kinds of patterns in this order.
  unfold map? at h
  rcases Option.or_eq_some_iff.1 h with hexact | ⟨-, h⟩
  · obtain ⟨name, -, rfl⟩ := Option.map_eq_some_iff.1 hexact
    exact ⟨UrlPattern.covers_exact_iff.2 rfl, .here rfl⟩
  rcases Option.or_eq_some_iff.1 h with hbelow | ⟨-, h⟩
  · exact isFor_of_matchBelow? hbelow
  rcases Option.or_eq_some_iff.1 h with hextension | hdefault
  · obtain ⟨ext, hext, hname⟩ := Option.bind_eq_some_iff.1 hextension
    obtain ⟨name, -, hm⟩ := Option.bind_eq_some_iff.1 hname
    obtain rfl := Option.some.inj hm
    exact ⟨UrlPattern.covers_extension_iff.2 (UrlPattern.extensionOf?_eq_some_iff.1 hext), .here rfl⟩
  · obtain ⟨name, -, rfl⟩ := Option.map_eq_some_iff.1 hdefault.2
    exact ⟨UrlPattern.covers_default _, .here rfl⟩

end MappingTable

namespace MappingMatch.IsFor

variable {m : MappingMatch} {path : String} (h : m.IsFor path)

include h

/-- The parts of a match that belongs to a path, put together again, are the path. -/
theorem path_eq : m.path = path := by
  rw [← String.toList_inj, MappingMatch.path, String.toList_append]
  exact h.divides.toList_eq.symm

/-- The path info of such a match starts with a slash. -/
theorem exists_eq_of_pathInfo {info : String} (hinfo : m.pathInfo = some info) : ∃ rest, info = "/" ++ rest := by
  have hdivides := h.divides
  rw [hinfo] at hdivides
  cases hdivides with
  | below rest _ => exact ⟨rest, rfl⟩

end MappingMatch.IsFor

end ServletContainer
