import ServletContainer.Routing.Pattern

namespace ServletContainer

/-!
# What a pattern covers

The test of a pattern on a path is a comparison of characters. Here it is put in words of the path alone:

* `DividesAt` — a path is a text, or that text followed by `/` and more.
* `HasExtension` — a path ends with a dot and a text that holds neither dots nor slashes.
* `UrlPattern.covers_below_iff`, `UrlPattern.covers_extension_iff` — the patterns cover exactly these paths.
* `DividesAt.eq_of_length_eq` — a path divides at no two texts of one length.
-/

/-! ### Paths below a text -/

/-- How `path` divides at `top`: it is `top`, or goes on behind it with a slash. -/
inductive DividesAt (top path : String) : (below : Option String) → Prop
  | here : path = top → DividesAt top path none
  | below (rest : String) : path = top ++ "/" ++ rest → DividesAt top path (some ("/" ++ rest))

/-- Whether `path` is `top` or lies below it. -/
def IsAtOrBelow (top path : String) : Prop := path = top ∨ ∃ rest, path = top ++ "/" ++ rest

/-- What divides at a text is that text or lies below it. -/
theorem DividesAt.isAtOrBelow {top path : String} {below : Option String} (h : DividesAt top path below) :
    IsAtOrBelow top path := by
  cases h with
  | here h => exact .inl h
  | below rest h => exact .inr ⟨rest, h⟩

/-- What is a text or lies below it divides there, in one of the two ways. -/
theorem IsAtOrBelow.exists_dividesAt {top path : String} (h : IsAtOrBelow top path) :
    ∃ below, DividesAt top path below := by
  rcases h with h | ⟨rest, h⟩
  · exact ⟨none, .here h⟩
  · exact ⟨some ("/" ++ rest), .below rest h⟩

/-- The path is `top` and what lies below it. -/
theorem DividesAt.toList_eq {top path : String} {below : Option String} (h : DividesAt top path below) :
    path.toList = top.toList ++ (below.getD "").toList := by
  cases h with
  | here h => simp [h]
  | below rest h => simp [h]

/-- And so `top` and `path` leave one answer for what lies below. -/
theorem DividesAt.below_unique {top path : String} {a b : Option String} (ha : DividesAt top path a)
    (hb : DividesAt top path b) : a = b := by
  have h : (a.getD "").toList = (b.getD "").toList :=
    List.append_cancel_left (ha.toList_eq.symm.trans hb.toList_eq)
  cases ha with
  | here _ =>
    cases hb with
    | here _ => rfl
    | below s _ => exact absurd h (by simp)
  | below r _ =>
    cases hb with
    | here _ => exact absurd h (by simp)
    | below s _ => exact congrArg some (String.toList_inj.1 h)

/-- Of two texts at which a path divides, one starts with the other; equal length (`h`) makes them equal. -/
theorem DividesAt.eq_of_length_eq {p q path : String} {a b : Option String} (hp : DividesAt p path a)
    (hq : DividesAt q path b) (h : p.length = q.length) : p = q := by
  have hs : p.toList ++ (a.getD "").toList = q.toList ++ (b.getD "").toList :=
    hp.toList_eq.symm.trans hq.toList_eq
  have hl : p.toList.length = q.toList.length := by
    rw [String.length_toList, String.length_toList, h]
  exact String.toList_inj.1 (List.append_inj_left hs hl)

/-- Among such texts the order by size in bytes (`h`), which `insertByLength` keeps, is the order by number of
characters, by which precedence is stated. -/
theorem DividesAt.length_le_of_utf8ByteSize_le {p q path : String} {a b : Option String}
    (hp : DividesAt p path a) (hq : DividesAt q path b) (h : p.utf8ByteSize ≤ q.utf8ByteSize) :
    p.length ≤ q.length := by
  have hs : p.toList ++ (a.getD "").toList = q.toList ++ (b.getD "").toList :=
    hp.toList_eq.symm.trans hq.toList_eq
  rcases List.append_eq_append_iff.1 hs with ⟨r, hr, -⟩ | ⟨r, hr, -⟩
  · have hlen := congrArg List.length hr
    simp only [List.length_append, String.length_toList] at hlen
    omega
  · -- Here `p` starts with `q`, and what it has beyond `q` takes up no bytes.
    have hpq : p = q ++ String.ofList r := String.toList_inj.1 (by simp [hr])
    rw [hpq, String.utf8ByteSize_append] at h
    have hzero : (String.ofList r).utf8ByteSize = 0 := by omega
    rw [String.utf8ByteSize_eq_zero_iff] at hzero
    simp [hpq, hzero]

/-- `restBelow?` finds a rest where the path is at `top` or below it. -/
theorem restBelow?_isSome_iff {top path : String} :
    (UrlPattern.restBelow? top path).isSome = true ↔ IsAtOrBelow top path := by
  rw [Option.isSome_iff_exists]
  simp only [UrlPattern.restBelow?_eq_some_iff]
  constructor
  · rintro ⟨r, hr, rfl | ⟨t, rfl⟩⟩
    · exact .inl (String.toList_inj.1 (by simpa using hr))
    · exact .inr ⟨String.ofList t, String.toList_inj.1 (by simp [hr])⟩
  · rintro (rfl | ⟨rest, rfl⟩)
    · exact ⟨[], by simp, .inl rfl⟩
    · exact ⟨'/' :: rest.toList, by simp, .inr ⟨rest.toList, rfl⟩⟩

/-! ### Extensions -/

/-- Whether a path ends with a dot and `ext`, which is the whole text behind the last dot of the last
segment: neither dots nor slashes follow that dot. -/
def HasExtension (path ext : String) : Prop :=
  '.' ∉ ext.toList ∧ '/' ∉ ext.toList ∧ ∃ stem, path = stem ++ "." ++ ext

namespace UrlPattern

/-- A path is what stands before its `lastSegment`, and that segment. -/
theorem exists_eq_append_lastSegment (s : List Char) :
    ∃ d, s = d ++ lastSegment s ∧ '/' ∉ lastSegment s ∧ (d = [] ∨ ∃ e, d = e ++ ['/']) := by
  unfold lastSegment
  cases h : Text.splitLast '/' s with
  | none => exact ⟨[], rfl, Text.splitLast_eq_none_iff.1 h, .inl rfl⟩
  | some p =>
    obtain ⟨d, t⟩ := p
    obtain ⟨hs, ht⟩ := Text.splitLast_eq_some_iff.1 h
    exact ⟨d ++ ['/'], by simp [hs], ht, .inr ⟨d, rfl⟩⟩

/-- A tail `b` without slashes (`hb`) lies within `lastSegment`, and so does the `c` in front of it. -/
theorem exists_lastSegment_eq_append {s a b : List Char} {c : Char} (h : s = a ++ c :: b) (hc : c ≠ '/')
    (hb : '/' ∉ b) : ∃ x, lastSegment s = x ++ c :: b := by
  obtain ⟨d, hs, -, hd⟩ := exists_eq_append_lastSegment s
  rcases List.append_eq_append_iff.1 (hs.symm.trans h) with ⟨x, -, hx⟩ | ⟨x, hdx, hx⟩
  · exact ⟨x, hx⟩
  · -- The cut lies within `d`, which ends with a slash; so nothing of `d` is behind the cut.
    have hslash : '/' ∉ x := by
      intro hm
      have : '/' ∈ c :: b := by simp [hx, hm]
      simp only [List.mem_cons] at this
      rcases this with rfl | hm'
      · exact hc rfl
      · exact hb hm'
    have hx' : x = [] := by
      rcases hd with rfl | ⟨e, rfl⟩
      · exact (List.append_eq_nil_iff.1 hdx.symm).2
      · rcases List.eq_nil_or_concat x with rfl | ⟨y, z, rfl⟩
        · rfl
        · rw [List.concat_eq_append] at hdx hslash
          rw [← List.append_assoc] at hdx
          have hz : ['/'] = [z] := List.append_inj_right' hdx rfl
          exact absurd (by simp [← hz]) hslash
    exact ⟨[], by simpa [hx'] using hx.symm⟩

/-- `extensionOf?` finds what `HasExtension` says: the text behind the last dot of the last segment. -/
theorem extensionOf?_eq_some_iff {path ext : String} :
    extensionOf? path = some ext ↔ HasExtension path ext := by
  simp only [extensionOf?, Option.map_eq_some_iff, Prod.exists, Text.splitLast_eq_some_iff]
  constructor
  · rintro ⟨a, b, ⟨hseg, hdot⟩, rfl⟩
    obtain ⟨d, hs, hslash, -⟩ := exists_eq_append_lastSegment path.toList
    rw [hseg] at hs hslash
    refine ⟨by simpa using hdot, by simp_all, String.ofList (d ++ a), ?_⟩
    apply String.toList_inj.1
    simp [hs]
  · rintro ⟨hdot, hslash, stem, rfl⟩
    obtain ⟨x, hx⟩ := exists_lastSegment_eq_append (s := (stem ++ "." ++ ext).toList) (a := stem.toList)
      (b := ext.toList) (c := '.') (by simp) (by decide) hslash
    exact ⟨x, ext.toList, ⟨hx, hdot⟩, by simp⟩

/-! ### Coverage -/

/-- An `exact` pattern covers the path that it names. -/
theorem covers_exact_iff {p path : String} : (exact p).covers path = true ↔ p = path := by
  simp [covers]

/-- A pattern `below` a path covers that path and those below it. -/
theorem covers_below_iff {top path : String} : (below top).covers path = true ↔ IsAtOrBelow top path :=
  restBelow?_isSome_iff

/-- A pattern of an `extension` covers the paths that have it. -/
theorem covers_extension_iff {ext path : String} :
    (extension ext).covers path = true ↔ HasExtension path ext := by
  rw [covers, beq_iff_eq, extensionOf?_eq_some_iff]

/-- The `default` covers all paths. -/
theorem covers_default (path : String) : default.covers path = true := rfl

end UrlPattern

end ServletContainer
