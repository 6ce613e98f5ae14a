namespace ServletContainer.Text

/-!
# Cutting text at marks

Texts are cut into lists of characters; the `String` forms only convert at both ends.

* `splitOnce`, `splitLast` — before and after the first or the last mark.
* `fields` — all pieces between marks.
* `dropHead?`, `dropTail?` — what is left of a text that starts or ends with another.
* `slashHeads` — the texts before each `/`.
-/

/-! ### Lists of characters -/

/-- What stands before and after the first `c`. -/
def splitOnce (c : Char) : List Char → Option (List Char × List Char)
  | [] => none
  | d :: r => if d = c then some ([], r) else (splitOnce c r).map fun p => (d :: p.1, p.2)

/-- What stands before and after the last `c`. -/
def splitLast (c : Char) : List Char → Option (List Char × List Char)
  | [] => none
  | d :: r =>
    match splitLast c r with
    | some p => some (d :: p.1, p.2)
    | none => if d = c then some ([], r) else none

/-- The pieces between the marks `c`; a text without a mark is its only piece. -/
def fields (c : Char) : List Char → List (List Char)
  | [] => [[]]
  | d :: r =>
    if d = c then [] :: fields c r
    else match fields c r with
      | [] => [[d]]
      | f :: fs => (d :: f) :: fs

/-- The pieces, with `c` between each two of them. -/
def joinFields (c : Char) : List (List Char) → List Char
  | [] => []
  | [f] => f
  | f :: g :: fs => f ++ c :: joinFields c (g :: fs)

/-- The rest of a text after `p`, if it starts with `p`. -/
def dropHead? : List Char → List Char → Option (List Char)
  | [], s => some s
  | _ :: _, [] => none
  | c :: p, d :: s => if c = d then dropHead? p s else none

/-- The text before `q`, if it ends with `q`. -/
def dropTail? (q s : List Char) : Option (List Char) :=
  (dropHead? q.reverse s.reverse).map List.reverse

/-- The texts that stand before a `/`, shortest first. -/
def slashHeads : List Char → List (List Char)
  | [] => []
  | c :: r => (if c = '/' then [[]] else []) ++ (slashHeads r).map (c :: ·)

/-- Drops every `c` at the end. -/
def trimTail (c : Char) (s : List Char) : List Char := (s.reverse.dropWhile (· = c)).reverse

/-- Whether `p` occurs somewhere in a text. -/
def occurs (p : List Char) : List Char → Bool
  | [] => p.isEmpty
  | c :: r => (dropHead? p (c :: r)).isSome || occurs p r

/-- Whether any of the characters `cs` occurs in a text. -/
def hasAny (cs s : List Char) : Bool := s.any fun c => cs.contains c

/-! ### Laws of the cuts -/

theorem splitOnce_eq_some_iff {c : Char} {s a b : List Char} :
    splitOnce c s = some (a, b) ↔ s = a ++ c :: b ∧ c ∉ a := by
  induction s generalizing a b with
  | nil => simp [splitOnce]
  | cons d r ih =>
    by_cases h : d = c
    · subst h
      simp only [splitOnce, if_true, Option.some.injEq, Prod.mk.injEq]
      constructor
      · rintro ⟨rfl, rfl⟩; simp
      · rintro ⟨h, hc⟩
        cases a with
        | nil => simpa using h
        | cons x a => simp_all
    · simp only [splitOnce, if_neg h, Option.map_eq_some_iff, Prod.mk.injEq, Prod.exists]
      constructor
      · rintro ⟨x, y, hxy, rfl, rfl⟩
        have := ih.1 hxy
        refine ⟨by simp [this.1], ?_⟩
        simp only [List.mem_cons, not_or]
        exact ⟨fun h' => h h'.symm, this.2⟩
      · rintro ⟨hs, hc⟩
        cases a with
        | nil => simp_all
        | cons x a =>
          simp only [List.cons_append, List.cons.injEq] at hs
          refine ⟨a, b, ih.2 ⟨hs.2, fun h' => hc (List.mem_cons_of_mem _ h')⟩, by rw [hs.1], rfl⟩

theorem splitOnce_eq_none_iff {c : Char} {s : List Char} : splitOnce c s = none ↔ c ∉ s := by
  induction s with
  | nil => simp [splitOnce]
  | cons d r ih =>
    by_cases h : d = c
    · simp [splitOnce, h]
    · have : ¬ c = d := fun h' => h h'.symm
      simp [splitOnce, h, ih, this]

theorem splitLast_eq_none_iff {c : Char} {s : List Char} : splitLast c s = none ↔ c ∉ s := by
  induction s with
  | nil => simp [splitLast]
  | cons d r ih =>
    cases h : splitLast c r with
    | some p =>
      have hr : c ∈ r := by simpa [h] using ih
      simp [splitLast, h, hr]
    | none =>
      have hr : c ∉ r := ih.1 h
      simp [splitLast, h, hr, eq_comm]

theorem splitLast_eq_some_iff {c : Char} {s a b : List Char} :
    splitLast c s = some (a, b) ↔ s = a ++ c :: b ∧ c ∉ b := by
  induction s generalizing a b with
  | nil => simp [splitLast]
  | cons d r ih =>
    cases h : splitLast c r with
    | some p =>
      obtain ⟨x, y⟩ := p
      obtain ⟨rfl, hy⟩ := ih.1 h
      simp only [splitLast, h, Option.some.injEq, Prod.mk.injEq]
      constructor
      · rintro ⟨rfl, rfl⟩
        exact ⟨rfl, hy⟩
      · rintro ⟨hs, hb⟩
        cases a with
        | nil =>
          simp only [List.nil_append, List.cons.injEq] at hs
          exact absurd (by simp [← hs.2]) hb
        | cons e a =>
          simp only [List.cons_append, List.cons.injEq] at hs
          have := ih.2 ⟨hs.2, hb⟩
          rw [h] at this
          simp_all
    | none =>
      have hr : c ∉ r := splitLast_eq_none_iff.1 h
      simp only [splitLast, h]
      constructor
      · intro hd
        split at hd
        · next hc => simp_all
        · simp at hd
      · rintro ⟨hs, -⟩
        cases a with
        | nil => simp_all
        | cons e a =>
          simp only [List.cons_append, List.cons.injEq] at hs
          exact absurd (by simp [hs.2]) hr

theorem dropHead?_eq_some_iff {p s r : List Char} : dropHead? p s = some r ↔ s = p ++ r := by
  induction p generalizing s with
  | nil => simp [dropHead?]
  | cons c p ih =>
    cases s with
    | nil => simp [dropHead?]
    | cons d s =>
      by_cases h : c = d
      · simp [dropHead?, h, ih]
      · have : ¬ d = c := fun h' => h h'.symm
        simp [dropHead?, h, this]

theorem dropTail?_eq_some_iff {q s r : List Char} : dropTail? q s = some r ↔ s = r ++ q := by
  simp only [dropTail?, Option.map_eq_some_iff, dropHead?_eq_some_iff]
  constructor
  · rintro ⟨t, ht, rfl⟩
    have := congrArg List.reverse ht
    simpa using this
  · rintro rfl
    exact ⟨r.reverse, by simp, by simp⟩

theorem fields_ne_nil (c : Char) (s : List Char) : fields c s ≠ [] := by
  cases s with
  | nil => simp [fields]
  | cons d r =>
    unfold fields
    split
    · simp
    · split <;> simp

theorem mem_slashHeads_iff {s h : List Char} : h ∈ slashHeads s ↔ ∃ r, s = h ++ '/' :: r := by
  induction s generalizing h with
  | nil => simp [slashHeads]
  | cons c r ih =>
    simp only [slashHeads, List.mem_append, List.mem_map, ih]
    constructor
    · rintro (hc | ⟨a, ⟨t, rfl⟩, rfl⟩)
      · by_cases hs : c = '/'
        · simp only [hs, if_true, List.mem_singleton] at hc
          exact ⟨r, by simp [hc, hs]⟩
        · simp [hs] at hc
      · exact ⟨t, by simp⟩
    · rintro ⟨t, ht⟩
      cases h with
      | nil =>
        simp only [List.nil_append, List.cons.injEq] at ht
        exact .inl (by simp [ht.1])
      | cons x a =>
        simp only [List.cons_append, List.cons.injEq] at ht
        exact .inr ⟨a, ⟨t, ht.2⟩, by rw [ht.1]⟩

/-! ### Strings -/

/-- `splitOnce` on strings. -/
def cut (c : Char) (s : String) : Option (String × String) :=
  (splitOnce c s.toList).map fun p => (String.ofList p.1, String.ofList p.2)

/-- `splitLast` on strings. -/
def cutLast (c : Char) (s : String) : Option (String × String) :=
  (splitLast c s.toList).map fun p => (String.ofList p.1, String.ofList p.2)

/-- `fields` on strings. -/
def pieces (c : Char) (s : String) : List String := (fields c s.toList).map String.ofList

/-- `dropHead?` on strings. -/
def after? (p s : String) : Option String := (dropHead? p.toList s.toList).map String.ofList

/-- Whether a string starts with another. -/
def startsWith (p s : String) : Bool := (dropHead? p.toList s.toList).isSome

/-- Whether a character occurs in a string. -/
def has (c : Char) (s : String) : Bool := s.toList.contains c

/-- The strings with `c` between each two of them. -/
def joinWith (sep : String) : List String → String
  | [] => ""
  | [s] => s
  | s :: t :: r => s ++ sep ++ joinWith sep (t :: r)

end ServletContainer.Text
