import ServletContainer.Proofs.Text.Pieces

namespace ServletContainer.Text

/-!
# Parts of a text

Whatever is cut off a text or trimmed consists of characters of the text.

* `cut_subset`, `pieces_subset`, `words_subset`, `after?_subset` — what a text is cut into.
* `trim_subset`, `trimMark_subset` — what is left of a text that is trimmed.
-/

variable {c : Char} {s t : String}

/-! ### Cutting -/

/-- Both parts of a `cut` consist of characters of the text. -/
theorem cut_subset {a b : String} (h : cut c s = some (a, b)) : a.toList ⊆ s.toList ∧ b.toList ⊆ s.toList := by
  obtain ⟨htext, -⟩ := cut_eq_some_iff.1 h
  rw [htext]
  exact ⟨List.subset_append_left _ _, List.Subset.trans (List.subset_cons_self c _) (List.subset_append_right _ _)⟩

/-- So do all `pieces`. -/
theorem pieces_subset (h : t ∈ pieces c s) : t.toList ⊆ s.toList := by
  obtain ⟨f, hf, rfl⟩ := List.mem_map.1 h
  rw [String.toList_ofList]
  exact fun d => mem_of_mem_fields hf

/-- The words of a text, of which one has begun, consist of characters that were there. By induction on the text. -/
theorem wordsFrom_subset {begun l f : List Char} (h : f ∈ wordsFrom begun l) : f ⊆ begun ++ l := by
  fun_induction wordsFrom begun l with
  | case1 => cases h
  | case2 begun _ =>
    obtain rfl := List.mem_singleton.1 h
    simp
  | case3 begun d r _ _ ih => exact List.Subset.trans (ih h) (by simp)
  | case4 begun d r _ _ ih =>
    rcases List.mem_cons.1 h with rfl | h
    · simp
    · exact List.Subset.trans (ih h) (by simp)
  | case5 begun d r _ ih =>
    -- The character `d` goes from the text to `begun`.
    exact List.Subset.trans (ih h) List.perm_middle.symm.subset

/-- So do all `words`. -/
theorem words_subset (h : t ∈ words s) : t.toList ⊆ s.toList := by
  obtain ⟨f, hf, rfl⟩ := List.mem_map.1 h
  rw [String.toList_ofList]
  exact wordsFrom_subset hf

/-- What comes `after?` a text is part of the whole. -/
theorem after?_subset {p : String} (h : after? p s = some t) : t.toList ⊆ s.toList := by
  obtain ⟨rest, hrest, rfl⟩ := Option.map_eq_some_iff.1 h
  rw [dropHead?_eq_some_iff.1 hrest, String.toList_ofList]
  exact List.subset_append_right _ _

/-! ### Trimming -/

/-- Dropping at both ends leaves some of what there was. -/
theorem dropWhile_both_subset (p : Char → Bool) (l : List Char) :
    ((l.dropWhile p).reverse.dropWhile p).reverse ⊆ l := by
  intro d hd
  have hlast : d ∈ (l.dropWhile p).reverse := (List.dropWhile_suffix p).subset (List.mem_reverse.1 hd)
  exact (List.dropWhile_suffix p).subset (List.mem_reverse.1 hlast)

/-- So `trim` brings no character in. -/
theorem trim_subset (s : String) : (trim s).toList ⊆ s.toList := by
  rw [trim, String.toList_ofList]
  exact dropWhile_both_subset isBlank s.toList

/-- `trimMark` brings no character in. -/
theorem trimMark_subset (c : Char) (s : String) : (trimMark c s).toList ⊆ s.toList := by
  rw [trimMark, String.toList_ofList]
  exact dropWhile_both_subset _ s.toList

end ServletContainer.Text
