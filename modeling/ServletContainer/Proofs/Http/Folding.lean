import Mathlib.Data.List.Pairwise
import ServletContainer.Http.Headers

namespace ServletContainer

/-!
# One line for each name

The block of a list of fields has one line for each of its names, however often and in whatever letter case a
name was added.

* `Headers.length_filter_names`, `Headers.pairwise_names` — a name has one line in the block.
* `Headers.text_of_pairwise` — fields of different names are sent one a line, in order.
* `Headers.folded`, `Headers.text_eq_join_folded` — one field for each name, and the block has a line for each.
* `Headers.names_folded`, `Headers.joined?_folded` — so are its names and their joined values.
-/

namespace Headers

/-! ### The names of a list of fields -/

theorem sameName_congr {m n : String} (h : sameName m n = true) (l : String) : sameName l m = sameName l n := by
  simp only [sameName, beq_iff_eq] at h ⊢
  rw [h]

section Names

variable {h : Headers} {n : String}

/-- A name of `names` is that of a field. -/
theorem exists_field_of_mem_names {m : String} (hm : m ∈ h.names) : ∃ f ∈ h.fields, f.name = m := by
  obtain ⟨l⟩ := h
  change m ∈ firstNames l at hm
  induction l with
  | nil => cases hm
  | cons f r ih =>
    rcases List.mem_cons.1 hm with rfl | hm
    · exact ⟨f, List.mem_cons_self, rfl⟩
    · obtain ⟨g, hg, hname⟩ := ih (List.mem_filter.1 hm).1
      exact ⟨g, List.mem_cons_of_mem _ hg, hname⟩

/-- So it is not the same as one that the fields do not have. -/
theorem not_sameName_of_mem_names (hn : h.contains n = false) {m : String} (hm : m ∈ h.names) :
    sameName n m = false := by
  obtain ⟨f, hf, rfl⟩ := exists_field_of_mem_names hm
  have hall : ∀ g ∈ h.fields, sameName g.name n = false := by simpa [contains] using hn
  rw [sameName_comm]
  exact hall f hf

/-- A name that some field has is listed once among `names`, in one spelling. -/
theorem length_filter_names {name : String} (hc : h.contains name = true) :
    (h.names.filter fun n => sameName n name).length = 1 := by
  obtain ⟨l⟩ := h
  show ((firstNames l).filter fun n => sameName n name).length = 1
  replace hc : l.any (fun f => sameName f.name name) = true := hc
  induction l with
  | nil => simp at hc
  | cons f r ih =>
    rw [firstNames]
    cases hf : sameName f.name name with
    | true =>
      -- `firstNames` drops the later spellings of the name, being the same name as this one.
      have hnone : ∀ n ∈ (firstNames r).filter (fun n => !sameName n f.name), sameName n name = false := by
        intro n hn
        rw [Bool.eq_false_iff]
        intro hname
        rw [sameName_comm] at hf
        simpa [sameName_trans hname hf] using (List.mem_filter.1 hn).2
      rw [List.filter_cons_of_pos (by simpa using hf), List.filter_eq_nil_iff.2 (by simpa using hnone)]
      rfl
    | false =>
      have hkeep : ∀ n ∈ firstNames r, (sameName n name && !sameName n f.name) = sameName n name := by
        intro n _
        cases hname : sameName n name with
        | false => rfl
        | true =>
          have hnf : sameName n f.name = false := by
            rw [Bool.eq_false_iff]
            intro hnf
            rw [sameName_comm] at hnf
            simp [sameName_trans hnf hname] at hf
          simp [hnf]
      rw [List.filter_cons_of_neg (by simp [hf]), List.filter_filter, List.filter_congr hkeep]
      exact ih (by simpa [hf] using hc)

/-- The `names` are pairwise not the same. -/
theorem pairwise_names (h : Headers) : h.names.Pairwise fun m n => sameName m n = false := by
  obtain ⟨l⟩ := h
  show (firstNames l).Pairwise _
  induction l with
  | nil => exact .nil
  | cons f r ih =>
    refine List.pairwise_cons.2 ⟨fun n hn => ?_, ih.filter _⟩
    rw [sameName_comm]
    simpa using (List.mem_filter.1 hn).2

/-- A name that some field has is listed in just one spelling `m`. -/
theorem exists_filter_names (hn : h.contains n = true) :
    ∃ m ∈ h.names, sameName m n = true ∧ h.names.filter (fun m => sameName m n) = [m] := by
  obtain ⟨m, hm⟩ := List.length_eq_one_iff.1 (length_filter_names hn)
  have hmem : m ∈ h.names.filter fun m => sameName m n := hm ▸ List.mem_singleton_self m
  exact ⟨m, (List.mem_filter.1 hmem).1, (List.mem_filter.1 hmem).2, hm⟩

/-- `joined?` does not tell spellings apart. -/
theorem joined?_of_sameName {m : String} (h : Headers) (hmn : sameName m n = true) :
    h.joined? m = h.joined? n := by
  have hsame : (fun f : HeaderField => sameName f.name m) = fun f => sameName f.name n :=
    funext fun f => sameName_congr hmn f.name
  rw [joined?, joined?, getAll, getAll, hsame]

/-- It joins the values that `getAll` gives. -/
theorem getD_joined? (h : Headers) (n : String) : (h.joined? n).getD "" = joinValues (h.getAll n) := by
  unfold joined?
  cases h.getAll n <;> rfl

theorem joined?_eq_none_iff : h.joined? n = none ↔ h.getAll n = [] := by
  unfold joined?
  split <;> simp_all

end Names

/-! ### Fields of different names -/

section Pairwise

variable {l : List HeaderField} (h : (l.map HeaderField.name).Pairwise fun m n => sameName m n = false)

include h

/-- If the names of `l` are pairwise not the same, `firstNames` leaves all of them. -/
theorem firstNames_of_pairwise : firstNames l = l.map HeaderField.name := by
  induction l with
  | nil => rfl
  | cons f r ih =>
    obtain ⟨hfirst, hrest⟩ := List.pairwise_cons.1 h
    rw [firstNames, ih hrest, List.map_cons, List.filter_eq_self.2]
    intro n hn
    rw [sameName_comm, hfirst n hn]
    rfl

/-- And each field of `l` is the only one of its name. -/
theorem filter_of_pairwise {f : HeaderField} (hf : f ∈ l) : l.filter (fun g => sameName g.name f.name) = [f] := by
  induction l with
  | nil => cases hf
  | cons g r ih =>
    obtain ⟨hfirst, hrest⟩ := List.pairwise_cons.1 h
    rcases List.mem_cons.1 hf with rfl | hf
    · have hothers : r.filter (fun g => sameName g.name f.name) = [] :=
        List.filter_eq_nil_iff.2 fun g hg => by
          simp [sameName_comm g.name, hfirst g.name (List.mem_map_of_mem hg)]
      rw [List.filter_cons_of_pos (by simp), hothers]
    · rw [List.filter_cons_of_neg (by simp [hfirst f.name (List.mem_map_of_mem hf)]), ih hrest hf]

/-- So each makes a line of its own, in order. -/
theorem text_of_pairwise : text ⟨l⟩ = String.join (l.map fun f => line f.name f.value) := by
  have hline (f : HeaderField) (hf : f ∈ l) : line f.name ((joined? ⟨l⟩ f.name).getD "") = line f.name f.value := by
    have hvalues : getAll ⟨l⟩ f.name = [f.value] := congrArg (List.map HeaderField.value) (filter_of_pairwise h hf)
    simp [joined?, hvalues, joinValues]
  have hnames : names ⟨l⟩ = l.map HeaderField.name := firstNames_of_pairwise h
  rw [text, hnames, List.map_map]
  exact congrArg String.join (List.map_congr_left hline)

end Pairwise

/-! ### Folding -/

/-- One field for each of the `names`, spelled as first added, with the `joined?` values. -/
def folded (h : Headers) : Headers := ⟨h.names.map fun n => ⟨n, (h.joined? n).getD ""⟩⟩

/-- `folded` has one field for each of `names`. -/
theorem map_name_folded (h : Headers) : h.folded.fields.map HeaderField.name = h.names := by
  simp [folded, Function.comp_def]

/-- No two fields of `folded` have the same name, in whatever letter case. -/
theorem pairwise_folded (h : Headers) :
    (h.folded.fields.map HeaderField.name).Pairwise fun m n => sameName m n = false := by
  rw [map_name_folded]
  exact h.pairwise_names

/-- `folded` keeps `names`. -/
theorem names_folded (h : Headers) : h.folded.names = h.names := by
  rw [names, firstNames_of_pairwise h.pairwise_folded, map_name_folded]

/-- The text of the fields has a line for each folded one. -/
theorem text_eq_join_folded (h : Headers) :
    h.text = String.join (h.folded.fields.map fun f => line f.name f.value) := by
  simp [text, folded, Function.comp_def]

/-- `getAll` of what is folded gives the joined values of the one spelling that is listed. -/
theorem getAll_folded (h : Headers) (n : String) : h.folded.getAll n =
    (h.names.filter fun m => sameName m n).map fun m => (h.joined? m).getD "" := by
  simp [getAll, folded, List.filter_map, Function.comp_def]

/-- So `joined?` of it is that of the fields. -/
theorem joined?_folded (h : Headers) (n : String) : h.folded.joined? n = h.joined? n := by
  cases hn : h.contains n with
  -- The field of `m` is the only one of that name, and its value is the joined one.
  | true =>
    obtain ⟨m, -, hsame, hm⟩ := exists_filter_names hn
    have hvalue : h.joined? n ≠ none := by
      rw [ne_eq, joined?_eq_none_iff]
      exact (contains_eq_true_iff h n).1 hn
    obtain ⟨v, hv⟩ := Option.ne_none_iff_exists'.1 hvalue
    have hown : h.folded.getAll n = [v] := by
      rw [getAll_folded, hm, List.map_singleton, h.joined?_of_sameName hsame, hv, Option.getD_some]
    rw [hv, joined?, hown]
    rfl
  | false =>
    have hnone : h.names.filter (fun m => sameName m n) = [] :=
      List.filter_eq_nil_iff.2 fun m hm => by simp [sameName_comm m, not_sameName_of_mem_names hn hm]
    have hgone : h.getAll n = [] := by
      by_contra hne
      simp [(contains_eq_true_iff h n).2 hne] at hn
    rw [joined?_eq_none_iff.2 hgone, joined?_eq_none_iff, getAll_folded, hnone, List.map_nil]

end Headers

end ServletContainer
