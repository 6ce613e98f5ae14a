import Mathlib.Data.List.Basic
import Mathlib.Data.List.TakeWhile
import ServletContainer.Text.Blank
import ServletContainer.Text.Split

namespace ServletContainer

/-!
# The pieces of a text

How a text is cut at a mark, and what is trimmed at the ends of one.

* `Text.cut_eq_some_iff`, `Text.cut_eq_none_iff` — a text that is cut at its first mark.
* `Text.fields_append_cons`, `Text.fields_append_of_not_mem`, `Text.exists_fields_append` — the pieces of a text
  that is put together: with a mark between, behind a text without marks, and in general.
* `Text.joinFields_append`, `Text.joinFields_fields`, `Text.fields_joinFields`, `Text.pieces_joinWith` — the text that
  pieces make up, and its pieces.
* `Text.mem_of_mem_fields`, `Text.not_mem_of_mem_fields`, `Text.not_mem_joinFields` — what is in a piece is in the text,
  but for the mark; what is in none of the pieces is not in the text.
* `Text.occurs_iff`, `Text.after?_append`, `Text.dropHead?_append_eq_none` — what is within a text, what starts one, and
  what does not.
* `Text.trimBlanks_of_none`, `Text.trimBlanks_eq_self_iff`, `Text.trimMark_of_none` — texts in which nothing is to
  be trimmed; `Text.trim_append` is such a text with blanks around it.
* `Avoids` — a text without any of some marks.
* `IsLastSegment` — what stands behind the last slash of a path.
-/

/-- Whether none of `marks` is in `s`. -/
def Avoids (marks : List Char) (s : String) : Prop := ∀ c ∈ s.toList, c ∉ marks

-- By name, as the instance that goes through all characters applies here as well.
instance (marks : List Char) (s : String) : Decidable (Avoids marks s) := List.decidableBAll (· ∉ marks) s.toList

/-- None of the marks (`hc`) is in the text. -/
theorem Avoids.not_mem {marks : List Char} {s : String} (h : Avoids marks s) {c : Char} (hc : c ∈ marks) :
    c ∉ s.toList := fun hs => h c hs hc

theorem Avoids.mono {marks marks' : List Char} {s : String} (h : Avoids marks s) (hsub : marks' ⊆ marks) :
    Avoids marks' s := fun c hc hmark => h c hc (hsub hmark)

/-- Whether `last` is the last segment of `path`. -/
def IsLastSegment (path last : String) : Prop :=
  '/' ∉ last.toList ∧ (path = last ∨ ∃ front, path = front ++ "/" ++ last)

/-- A path has a last segment. -/
theorem IsLastSegment.exists_last (path : String) : ∃ last, IsLastSegment path last := by
  cases hsplit : Text.splitLast '/' path.toList with
  | none => exact ⟨path, Text.splitLast_eq_none_iff.1 hsplit, .inl rfl⟩
  | some p =>
    obtain ⟨htext, hslash⟩ := Text.splitLast_eq_some_iff.1 hsplit
    refine ⟨String.ofList p.2, by simpa using hslash, .inr ⟨String.ofList p.1, ?_⟩⟩
    exact String.toList_inj.1 (by simp [htext])

namespace Text

theorem toList_surjective : Function.Surjective String.toList := fun l => ⟨String.ofList l, String.toList_ofList⟩

/-! ### Cutting -/

/-- A text without marks (`h`) is one piece. -/
theorem fields_of_not_mem {c : Char} {s : List Char} (h : c ∉ s) : fields c s = [s] := by
  induction s with
  | nil => rfl
  | cons d r ih =>
    obtain ⟨hd, hr⟩ : ¬ c = d ∧ c ∉ r := by simpa using h
    rw [fields, if_neg fun hcd => hd hcd.symm, ih hr]

/-- `splitOnce` gives what stands before and after the first mark. -/
theorem splitOnce_eq (c : Char) (s : List Char) : splitOnce c s =
    if c ∈ s then some (s.takeWhile (· ≠ c), (s.dropWhile (· ≠ c)).drop 1) else none := by
  induction s with
  | nil => rfl
  | cons d r ih =>
    by_cases h : d = c
    · simp [splitOnce, h]
    · have h' : c ≠ d := fun e => h e.symm
      simp only [splitOnce, if_neg h, ih, List.mem_cons, h', false_or]
      split <;> simp [h]

/-- `cut` gives the parts of a text around its first mark. -/
theorem cut_eq_some_iff {c : Char} {s a b : String} :
    cut c s = some (a, b) ↔ s.toList = a.toList ++ c :: b.toList ∧ c ∉ a.toList := by
  rw [← splitOnce_eq_some_iff]
  simp only [cut, Option.map_eq_some_iff, Prod.mk.injEq, Prod.exists]
  constructor
  · rintro ⟨l, r, h, rfl, rfl⟩
    simpa using h
  · exact fun h => ⟨_, _, h, String.ofList_toList, String.ofList_toList⟩

theorem cut_eq_none_iff {c : Char} {s : String} : cut c s = none ↔ c ∉ s.toList := by
  rw [cut, Option.map_eq_none_iff, splitOnce_eq_none_iff]

/-- Nothing is taken once all that could be taken is dropped. -/
theorem takeWhile_dropWhile (p : Char → Bool) (s : List Char) : (s.dropWhile p).takeWhile p = [] := by
  induction s with
  | nil => rfl
  | cons d r ih => by_cases hd : p d = true <;> simp [hd, ih]

/-- A text is cut where the first character stands that is not taken (`ht`). -/
theorem span_append {p : Char → Bool} {s t : List Char} (hs : ∀ c ∈ s, p c = true) (ht : ∀ c ∈ t.head?, p c = false) :
    (s ++ t).takeWhile p = s ∧ (s ++ t).dropWhile p = t := by
  rw [List.takeWhile_append_of_pos hs, List.dropWhile_append_of_pos hs]
  cases t with
  | nil => simp
  | cons c r => simp [ht c rfl]

/-- `fields` splits at a mark into the pieces on both sides of it. -/
theorem fields_append_cons (c : Char) (a b : List Char) :
    fields c (a ++ c :: b) = fields c a ++ fields c b := by
  induction a with
  | nil => simp [fields]
  | cons d r ih =>
    by_cases hd : d = c
    · simp [fields, hd, ih]
    · obtain ⟨f, fs, hf⟩ := List.exists_cons_of_ne_nil (fields_ne_nil c r)
      simp [fields, hd, ih, hf]

/-- A text without marks (`hp`) in front goes to the first piece. -/
theorem fields_append_of_not_mem {c : Char} {p : List Char} (hp : c ∉ p) (s : List Char) :
    ∃ f fs, fields c s = f :: fs ∧ fields c (p ++ s) = (p ++ f) :: fs := by
  obtain ⟨f, fs, hf⟩ := List.exists_cons_of_ne_nil (fields_ne_nil c s)
  refine ⟨f, fs, hf, ?_⟩
  induction p with
  | nil => exact hf
  | cons d r ih =>
    obtain ⟨hd, hr⟩ : ¬ c = d ∧ c ∉ r := by simpa using hp
    rw [List.cons_append, fields, if_neg fun hdc => hd hdc.symm, ih hr]
    rfl

/-- The last piece of a text and the first one of the next are joined. -/
theorem exists_fields_append (c : Char) (s t : List Char) :
    ∃ init last f fs, fields c s = init ++ [last] ∧ fields c t = f :: fs ∧
      fields c (s ++ t) = init ++ (last ++ f) :: fs := by
  induction s with
  | nil =>
    obtain ⟨f, fs, hf⟩ := List.exists_cons_of_ne_nil (fields_ne_nil c t)
    exact ⟨[], [], f, fs, rfl, hf, hf⟩
  | cons d r ih =>
    obtain ⟨init, last, f, fs, hr, ht, hjoin⟩ := ih
    by_cases hd : d = c
    · exact ⟨[] :: init, last, f, fs, by simp [fields, hd, hr], ht, by simp [fields, hd, hjoin]⟩
    · cases init with
      | nil => exact ⟨[], d :: last, f, fs, by simp [fields, hd, hr], ht, by simp [fields, hd, hjoin]⟩
      | cons g gs => exact ⟨(d :: g) :: gs, last, f, fs, by simp [fields, hd, hr], ht, by simp [fields, hd, hjoin]⟩

/-- A text without marks (`ht`) at the end goes to the last piece. -/
theorem exists_fields_append_of_not_mem {c : Char} {t : List Char} (ht : c ∉ t) (s : List Char) :
    ∃ init last, fields c s = init ++ [last] ∧ fields c (s ++ t) = init ++ [last ++ t] := by
  obtain ⟨init, last, f, fs, hs, hf, hjoin⟩ := exists_fields_append c s t
  obtain ⟨rfl, rfl⟩ := List.cons.inj ((fields_of_not_mem ht).symm.trans hf)
  exact ⟨init, last, hs, hjoin⟩

/-- The first piece of a text starts as the text does. -/
theorem mem_head?_of_fields {c d : Char} {s f : List Char} {fs : List (List Char)} (h : fields c s = f :: fs)
    (hd : d ∈ f.head?) : d ∈ s.head? := by
  cases s with
  | nil =>
    rw [fields, List.cons.injEq] at h
    rw [← h.1] at hd
    cases hd
  | cons a r =>
    obtain ⟨g, gs, hg⟩ := List.exists_cons_of_ne_nil (fields_ne_nil c r)
    rw [fields, hg] at h
    split at h
    · rw [← (List.cons.inj h).1] at hd
      cases hd
    · rw [← (List.cons.inj h).1] at hd
      exact hd

/-! ### Joining -/

/-- `joinFields` puts the mark between two lists of pieces, too. -/
theorem joinFields_append {c : Char} {l m : List (List Char)} (hl : l ≠ []) (hm : m ≠ []) :
    joinFields c (l ++ m) = joinFields c l ++ c :: joinFields c m := by
  fun_induction joinFields c l with
  | case1 => exact absurd rfl hl
  | case2 f =>
    obtain ⟨g, gs, rfl⟩ := List.exists_cons_of_ne_nil hm
    rfl
  | case3 f g fs ih =>
    have hjoin := ih (List.cons_ne_nil g fs)
    rw [List.cons_append, List.cons_append, joinFields, ← List.cons_append, hjoin, List.append_assoc]
    rfl

/-- The pieces of a text make up the text. -/
theorem joinFields_fields (c : Char) (s : List Char) : joinFields c (fields c s) = s := by
  induction s with
  | nil => rfl
  | cons d r ih =>
    obtain ⟨f, fs, hf⟩ := List.exists_cons_of_ne_nil (fields_ne_nil c r)
    rw [hf] at ih
    by_cases hd : d = c
    · rw [fields, if_pos hd, hf, joinFields, ih, hd]
      rfl
    · rw [fields, if_neg hd, hf]
      cases fs with
      | nil => exact congrArg (d :: ·) ih
      | cons g gs => exact congrArg (d :: ·) ih

/-- Pieces without marks (`hl`) are those of the text that they make up. -/
theorem fields_joinFields {c : Char} {l : List (List Char)} (hne : l ≠ []) (hl : ∀ f ∈ l, c ∉ f) :
    fields c (joinFields c l) = l := by
  fun_induction joinFields c l with
  | case1 => exact absurd rfl hne
  | case2 f => exact fields_of_not_mem (hl f List.mem_cons_self)
  | case3 f g fs ih =>
    obtain ⟨hf, hrest⟩ := List.forall_mem_cons.1 hl
    rw [fields_append_cons, fields_of_not_mem hf, ih (List.cons_ne_nil g fs) hrest, List.singleton_append]

/-- `pieces` splits at a mark into the pieces on both sides of it. -/
theorem pieces_append (c : Char) (a b : String) :
    pieces c (a ++ String.singleton c ++ b) = pieces c a ++ pieces c b := by
  have htext : (a ++ String.singleton c ++ b).toList = a.toList ++ c :: b.toList := by simp
  rw [pieces, htext, fields_append_cons, List.map_append]
  rfl

/-- The pieces of texts that are put together with the mark between are the pieces of each. -/
theorem pieces_joinWith (c : Char) {l : List String} (hne : l ≠ []) :
    pieces c (joinWith (String.singleton c) l) = l.flatMap (pieces c) := by
  fun_induction joinWith (String.singleton c) l with
  | case1 => exact absurd rfl hne
  | case2 s => rw [List.flatMap_singleton]
  | case3 s t r ih =>
    rw [pieces_append, ih (List.cons_ne_nil t r)]
    exact List.flatMap_cons.symm

/-- The characters of a piece are in the text that it is joined to. -/
theorem mem_joinFields_of_mem {c d : Char} {l : List (List Char)} {f : List Char} (hf : f ∈ l) (hd : d ∈ f) :
    d ∈ joinFields c l := by
  fun_induction joinFields c l with
  | case1 => cases hf
  | case2 g =>
    obtain rfl := List.mem_singleton.1 hf
    exact hd
  | case3 g f' fs ih =>
    rcases List.mem_cons.1 hf with rfl | hf
    · exact List.mem_append_left _ hd
    · exact List.mem_append_right _ (List.mem_cons_of_mem c (ih hf))

theorem mem_of_mem_fields {c d : Char} {s f : List Char} (hf : f ∈ fields c s) (hd : d ∈ f) : d ∈ s :=
  joinFields_fields c s ▸ mem_joinFields_of_mem hf hd

/-- No piece has a mark in it. By induction on the text. -/
theorem not_mem_of_mem_fields {c : Char} {s f : List Char} (hf : f ∈ fields c s) : c ∉ f := by
  induction s generalizing f with
  | nil =>
    obtain rfl := List.mem_singleton.1 hf
    exact List.not_mem_nil
  | cons d r ih =>
    obtain ⟨g, gs, hg⟩ := List.exists_cons_of_ne_nil (fields_ne_nil c r)
    rw [hg] at ih
    -- `c` opens an empty field; any other character joins the first field of `r`.
    by_cases hd : d = c
    · rw [fields, if_pos hd, hg] at hf
      rcases List.mem_cons.1 hf with rfl | hf
      · exact List.not_mem_nil
      · exact ih hf
    · rw [fields, if_neg hd, hg] at hf
      rcases List.mem_cons.1 hf with rfl | hf
      · rw [List.mem_cons, not_or]
        exact ⟨fun heq => hd heq.symm, ih List.mem_cons_self⟩
      · exact ih (List.mem_cons_of_mem g hf)

/-- Nothing but the mark comes in by joining pieces. -/
theorem not_mem_joinFields {c d : Char} {l : List (List Char)} (hd : d ≠ c) (hl : ∀ f ∈ l, d ∉ f) :
    d ∉ joinFields c l := by
  fun_induction joinFields c l with
  | case1 => simp
  | case2 f => exact hl f (by simp)
  | case3 f g fs ih =>
    have hrest : d ∉ joinFields c (g :: fs) := ih fun f' hf' => hl f' (List.mem_cons_of_mem f hf')
    simp [hl f (by simp), hd, hrest]

/-- A text `occurs` in another one where this is the text with something around it. -/
theorem occurs_iff {p s : List Char} : occurs p s = true ↔ p <:+: s := by
  induction s with
  | nil => simp [occurs]
  | cons c r ih =>
    rw [occurs, Bool.or_eq_true, ih, List.infix_cons_iff, Option.isSome_iff_exists]
    simp only [dropHead?_eq_some_iff, List.IsPrefix, eq_comm (a := c :: r)]

/-- What comes `after?` the start of a text is the rest. -/
theorem after?_append (p r : String) : after? p (p ++ r) = some r := by
  rw [after?, String.toList_append, dropHead?_eq_some_iff.2 rfl, Option.map_some, String.ofList_toList]

/-- What does not start with `p` (`hs`) does not do so either with more behind it that cannot belong to `p` (`ht`). -/
theorem dropHead?_append_eq_none {p s t : List Char} (hs : dropHead? p s = none) (ht : ∀ d ∈ t.head?, d ∉ p) :
    dropHead? p (s ++ t) = none := by
  rw [Option.eq_none_iff_forall_ne_some]
  intro r hr
  rcases List.append_eq_append_iff.1 (dropHead?_eq_some_iff.1 hr) with ⟨a, hp, hta⟩ | ⟨a, hsa, -⟩
  · cases a with
    | nil =>
      have hself : dropHead? p s = some [] := dropHead?_eq_some_iff.2 (by simp [hp])
      rw [hs] at hself
      cases hself
    | cons d a => exact ht d (by simp [hta]) (by simp [hp])
  · have hstarts : dropHead? p s = some a := dropHead?_eq_some_iff.2 hsa
    rw [hs] at hstarts
    cases hstarts

/-! ### Trimming -/

/-- Nothing is dropped at either end of a text in which nothing is to be dropped (`hs`). -/
theorem dropWhile_both_of_none {p : Char → Bool} {s : List Char} (hs : ∀ d ∈ s, p d = false) :
    ((s.dropWhile p).reverse.dropWhile p).reverse = s := by
  have hnone : ∀ t : List Char, (∀ d ∈ t, p d = false) → t.dropWhile p = t := by
    intro t ht
    exact List.dropWhile_eq_self_iff.2 fun hpos => by simp [ht _ (List.getElem_mem hpos)]
  rw [hnone s hs, hnone s.reverse (by simpa using hs), List.reverse_reverse]

/-- So `trimBlanks` leaves a text without blanks (`hs`). -/
theorem trimBlanks_of_none {s : List Char} (hs : ∀ d ∈ s, isBlank d = false) : trimBlanks s = s :=
  dropWhile_both_of_none hs

/-- A blank (`hc`) in front of a text without blanks (`hs`) is trimmed. -/
theorem trimBlanks_cons_of_none {c : Char} {s : List Char} (hc : isBlank c = true)
    (hs : ∀ d ∈ s, isBlank d = false) : trimBlanks (c :: s) = s := by
  rw [trimBlanks, List.dropWhile_cons_of_pos hc]
  exact dropWhile_both_of_none hs

/-- `trimBlanks` takes nothing if and only if neither end is blank. -/
theorem trimBlanks_eq_self_iff {s : List Char} : trimBlanks s = s ↔
    (∀ c ∈ s.head?, isBlank c = false) ∧ ∀ c ∈ s.getLast?, isBlank c = false := by
  have hends : ∀ t : List Char, t.dropWhile isBlank = t ↔ ∀ c ∈ t.head?, isBlank c = false := by
    intro t
    cases t with
    | nil => simp
    | cons d r =>
      cases hd : isBlank d with
      | true =>
        have hne : r.dropWhile isBlank ≠ d :: r := by
          intro h
          have hle := (List.dropWhile_suffix isBlank (l := r)).length_le
          rw [h, List.length_cons] at hle
          omega
        simp [hd, hne]
      | false => simp [hd]
  rw [← List.head?_reverse, ← hends, ← hends, trimBlanks]
  constructor
  · intro h
    -- Neither of the two cuts shortens the text.
    have hfirst := (List.dropWhile_suffix isBlank (l := s)).length_le
    have hlast := (List.dropWhile_suffix isBlank (l := (s.dropWhile isBlank).reverse)).length_le
    have hlength := congrArg List.length h
    rw [List.length_reverse] at hlast hlength
    have hs : s.dropWhile isBlank = s := (List.dropWhile_suffix isBlank).eq_of_length (by omega)
    rw [hs] at h
    exact ⟨hs, by rw [← List.reverse_eq_iff, h]⟩
  · rintro ⟨hfirst, hlast⟩
    rw [hfirst, hlast, List.reverse_reverse]

/-- `trim` is `trimBlanks` of the characters. -/
theorem trim_eq_self_iff {s : String} : trim s = s ↔ trimBlanks s.toList = s.toList := by
  rw [trim, ← String.toList_inj, String.toList_ofList]

/-- Blanks around a text (`hlead`, `htrail`) are trimmed. -/
theorem trim_append {lead s trail : String} (hlead : ∀ c ∈ lead.toList, isBlank c = true)
    (htrail : ∀ c ∈ trail.toList, isBlank c = true) (hs : trim s = s) : trim (lead ++ s ++ trail) = s := by
  have hends := trim_eq_self_iff.1 hs
  obtain ⟨hfirst, -⟩ := trimBlanks_eq_self_iff.1 hends
  rw [trim, ← String.toList_inj, String.toList_ofList, String.toList_append, String.toList_append, trimBlanks,
    List.append_assoc, List.dropWhile_append_of_pos hlead]
  rw [trimBlanks] at hends
  cases hlist : s.toList with
  -- If `s` is empty, the blanks behind it go with those in front.
  | nil =>
    have hnone : trail.toList.dropWhile isBlank = [] := List.dropWhile_eq_nil_iff.2 htrail
    simp [hnone]
  | cons d r =>
    rw [hlist] at hfirst hends
    have hd : isBlank d = false := hfirst d rfl
    rw [List.dropWhile_cons_of_neg (by simp [hd])] at hends
    rw [List.cons_append, List.dropWhile_cons_of_neg (by simp [hd]), ← List.cons_append, List.reverse_append,
      List.dropWhile_append_of_pos (by simpa using htrail), hends]

/-- `trimMark` takes nothing from a text without the mark (`hs`). -/
theorem trimMark_of_none {c : Char} {s : String} (hs : ∀ d ∈ s.toList, d ≠ c) : trimMark c s = s := by
  rw [trimMark, dropWhile_both_of_none fun d hd => decide_eq_false (hs d hd), String.ofList_toList]

end Text

end ServletContainer
