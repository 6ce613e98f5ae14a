import ServletContainer.Routing.MappingTable

namespace ServletContainer

/-!
# Registering patterns

What a table holds after any sequence of registrations, accepted or refused.

* `MappingTable.register`, `MappingTable.registerAll` — registrations in order; a refused one changes nothing.
* `MappingTable.registered` — the patterns with their servlets whose registration was accepted.
* `MappingTable.Represents` — the invariant: every pattern belongs to the servlet it was registered for, and
  the paths with sub-paths are sorted by size.
* `MappingTable.represents_registerAll` — every sequence of registrations keeps it.
-/

/-- The text of a pattern and the name of a servlet. -/
abbrev Registration := String × String

namespace MappingTable

/-! ### Sequences of registrations -/

/-- The table `t` after a registration; one that `add` refuses leaves it as it is. -/
def register (t : MappingTable) (e : Registration) : MappingTable :=
  match t.add e.1 e.2 with
  | .ok t => t
  | .error _ => t

/-- The table `t` after registrations in order, with `register`. -/
def registerAll (t : MappingTable) (l : List Registration) : MappingTable := l.foldl register t

@[simp] theorem registerAll_nil (t : MappingTable) : t.registerAll [] = t := rfl

@[simp] theorem registerAll_cons (t : MappingTable) (e : Registration) (l : List Registration) :
    t.registerAll (e :: l) = (t.register e).registerAll l := rfl

theorem registerAll_append (t : MappingTable) (l m : List Registration) :
    t.registerAll (l ++ m) = (t.registerAll l).registerAll m := List.foldl_append

/-- The parsed pattern and the servlet of `e` if `add` accepts it. -/
def accepted? (t : MappingTable) (e : Registration) : Option (UrlPattern × String) :=
  match t.add e.1 e.2, UrlPattern.parse e.1 with
  | .ok _, .ok p => some (p, e.2)
  | _, _ => none

/-- The parsed patterns with their servlets of the registrations that are `accepted?`, in order. -/
def registered (t : MappingTable) : List Registration → List (UrlPattern × String)
  | [] => []
  | e :: l => (t.accepted? e).toList ++ (t.register e).registered l

/-! ### One registration -/

/-- `add` accepts a registration if and only if its pattern can be read and belongs to no other servlet; it changes the
table only if the pattern is new. -/
theorem add_eq_ok_iff {t t' : MappingTable} {pattern servlet : String} :
    t.add pattern servlet = .ok t' ↔ ∃ p, UrlPattern.parse pattern = .ok p ∧
      ((t.owner? p = some servlet ∧ t' = t) ∨ (t.owner? p = none ∧ t' = t.assign servlet p)) := by
  unfold add
  cases hp : UrlPattern.parse pattern with
  | error e => simp
  | ok p =>
    cases ho : t.owner? p with
    | none => simp [ho, eq_comm]
    | some existing =>
      by_cases he : existing = servlet
      · simp [ho, he, eq_comm]
      · simp [ho, he]

/-- A registration that is refused (`h`) leaves the table. -/
theorem register_of_error {t : MappingTable} {e : Registration} {err : MappingError}
    (h : t.add e.1 e.2 = .error err) : t.register e = t := by
  simp [register, h]

/-- What `register` does, in three cases: the registration is refused, repeats what is there, or adds a pattern. A
pattern that can be read is refused only for the sake of another servlet. -/
theorem register_cases (t : MappingTable) (e : Registration) :
    (t.accepted? e = none ∧ t.register e = t ∧
      ∀ p, UrlPattern.parse e.1 = .ok p → ∃ other, t.owner? p = some other ∧ other ≠ e.2) ∨
    (∃ p, UrlPattern.parse e.1 = .ok p ∧ t.accepted? e = some (p, e.2) ∧ t.owner? p = some e.2 ∧
      t.register e = t) ∨
    (∃ p, UrlPattern.parse e.1 = .ok p ∧ t.accepted? e = some (p, e.2) ∧ t.owner? p = none ∧
      t.register e = t.assign e.2 p) := by
  cases h : t.add e.1 e.2 with
  | error err =>
    -- A refused pattern that parses is owned by another servlet, since `add` would have taken it otherwise.
    refine .inl ⟨by simp [accepted?, h], register_of_error h, fun p hp => ?_⟩
    cases ho : t.owner? p with
    | none =>
      have hadd : t.add e.1 e.2 = .ok (t.assign e.2 p) := add_eq_ok_iff.2 ⟨p, hp, .inr ⟨ho, rfl⟩⟩
      simp [h] at hadd
    | some other =>
      refine ⟨other, rfl, ?_⟩
      rintro rfl
      have hadd : t.add e.1 e.2 = .ok t := add_eq_ok_iff.2 ⟨p, hp, .inl ⟨ho, rfl⟩⟩
      simp [h] at hadd
  | ok t' =>
    obtain ⟨p, hp, ⟨ho, ht⟩ | ⟨ho, ht⟩⟩ := add_eq_ok_iff.1 h
    · exact .inr (.inl ⟨p, hp, by simp [accepted?, h, hp], ho, by simp [register, h, ht]⟩)
    · exact .inr (.inr ⟨p, hp, by simp [accepted?, h, hp], ho, by simp [register, h, ht]⟩)

/-! ### Entries sorted by size -/

/-- In the list that `insertByLength` gives, the new path (`h`) is found, and all others as before. -/
theorem find?_insertByLength {p : String} {servlet : String} {l : List (String × String)}
    (h : Table.find? p l = none) (q : String) :
    Table.find? q (insertByLength (p, servlet) l) = if q = p then some servlet else Table.find? q l := by
  induction l with
  | nil => simp [insertByLength, Table.find?, eq_comm]
  | cons f r ih =>
    -- As `p` is new, no entry that is passed on the way shadows it.
    have hf : f.1 ≠ p := by
      intro hf
      simp [Table.find?, hf] at h
    rw [Table.find?, if_neg hf] at h
    unfold insertByLength
    split
    · rw [Table.find?, ih h]
      by_cases hq : f.1 = q
      · have hqp : q ≠ p := hq ▸ hf
        simp [Table.find?, hq, hqp]
      · simp [Table.find?, hq]
    · simp [Table.find?, eq_comm]

/-- Whether the entries of `l` stand in the order of the sizes of their paths, largest first. -/
def SortedBySize (l : List (String × String)) : Prop :=
  l.Pairwise fun e f => f.1.utf8ByteSize ≤ e.1.utf8ByteSize

/-- `insertByLength` adds one entry. -/
theorem mem_insertByLength {e f : String × String} {l : List (String × String)} :
    f ∈ insertByLength e l ↔ f = e ∨ f ∈ l := by
  induction l with
  | nil => simp [insertByLength]
  | cons g r ih =>
    unfold insertByLength
    split
    · simp only [List.mem_cons, ih]
      constructor
      · rintro (h | h | h) <;> simp [h]
      · rintro (h | h | h) <;> simp [h]
    · simp

/-- `insertByLength` puts its entry in front of the first that is smaller, so that the list stays `SortedBySize`. -/
theorem sortedBySize_insertByLength {e : String × String} {l : List (String × String)}
    (h : SortedBySize l) : SortedBySize (insertByLength e l) := by
  induction l with
  | nil => simp [insertByLength, SortedBySize]
  | cons g r ih =>
    obtain ⟨hg, hr⟩ := List.pairwise_cons.1 h
    unfold insertByLength
    split
    · next hle =>
      refine List.pairwise_cons.2 ⟨?_, ih hr⟩
      intro f hf
      rcases mem_insertByLength.1 hf with rfl | hf
      · exact hle
      · exact hg f hf
    · next hlt =>
      refine List.pairwise_cons.2 ⟨?_, h⟩
      intro f hf
      -- The new entry is longer than `g`, and `g` at least as long as the rest.
      rcases List.mem_cons.1 hf with rfl | hf
      · omega
      · have := hg f hf
        omega

/-! ### The invariant -/

/-- A pattern that was free (`h`) belongs to its servlet then, and no other changes hands. -/
theorem owner?_assign {t : MappingTable} {p : UrlPattern} {servlet : String} (h : t.owner? p = none)
    (q : UrlPattern) : (t.assign servlet p).owner? q = if q = p then some servlet else t.owner? q := by
  cases p with
  | exact a => cases q <;> simp [assign, owner?, Table.get?_insert]
  | below a =>
    cases q with
    | below b => simpa [assign, owner?] using find?_insertByLength h b
    | _ => simp [assign, owner?]
  | extension a => cases q <;> simp [assign, owner?, Table.get?_insert]
  | default => cases q <;> simp [assign, owner?]

/-- And `assign` keeps the paths with sub-paths in order. -/
theorem sortedBySize_assign {t : MappingTable} {p : UrlPattern} {servlet : String}
    (h : SortedBySize t.below) : SortedBySize (t.assign servlet p).below := by
  cases p with
  | below a => exact sortedBySize_insertByLength h
  | _ => exact h

/-- A table that holds the patterns `R` with their servlets. -/
structure Represents (t : MappingTable) (R : List (UrlPattern × String)) : Prop where
  /-- Every pattern belongs to the one servlet it was registered for. -/
  owner : ∀ p servlet, (p, servlet) ∈ R ↔ t.owner? p = some servlet
  /-- The larger of two paths with sub-paths is tried first. -/
  sorted : SortedBySize t.below

theorem represents_empty : Represents empty [] where
  owner p servlet := by cases p <;> simp [empty, owner?, Table.find?]
  sorted := List.Pairwise.nil

/-- A pattern belongs to one servlet only. -/
theorem Represents.servlet_unique {t : MappingTable} {R : List (UrlPattern × String)}
    (h : Represents t R) {p : UrlPattern} {a b : String} (ha : (p, a) ∈ R) (hb : (p, b) ∈ R) : a = b := by
  rw [h.owner] at ha hb
  exact Option.some.inj (ha.symm.trans hb)

/-- `register` adds the pattern that is accepted, if it is new, to those that the table represents. By `register_cases`.
-/
theorem Represents.register {t : MappingTable} {R : List (UrlPattern × String)} (h : Represents t R)
    (e : Registration) : Represents (t.register e) (R ++ (t.accepted? e).toList) := by
  -- `register_cases`: refused, already owned by this servlet, or newly assigned.
  rcases t.register_cases e with ⟨ha, ht, -⟩ | ⟨p, -, ha, ho, ht⟩ | ⟨p, -, ha, ho, ht⟩
  · rw [ha, ht]
    simpa using h
  · rw [ha, ht]
    refine ⟨fun q servlet => ?_, h.sorted⟩
    simp only [Option.toList_some, List.mem_append, List.mem_singleton, Prod.mk.injEq, h.owner]
    constructor
    · rintro (hq | ⟨rfl, rfl⟩)
      · exact hq
      · exact ho
    · exact .inl
  · rw [ha, ht]
    refine ⟨fun q servlet => ?_, sortedBySize_assign h.sorted⟩
    rw [owner?_assign ho]
    simp only [Option.toList_some, List.mem_append, List.mem_singleton, Prod.mk.injEq, h.owner]
    by_cases hq : q = p
    · simp [hq, ho, eq_comm]
    · simp [hq]

/-- So registrations in order add those that are accepted, by induction. -/
theorem Represents.registerAll {t : MappingTable} {R : List (UrlPattern × String)} (h : Represents t R)
    (l : List Registration) : Represents (t.registerAll l) (R ++ t.registered l) := by
  induction l generalizing t R with
  | nil => simpa [registered] using h
  | cons e l ih =>
    have := ih (h.register e)
    rwa [List.append_assoc] at this

theorem represents_registerAll (l : List Registration) :
    Represents (empty.registerAll l) (empty.registered l) := by
  simpa using represents_empty.registerAll l

/-- `Represents` looks at which patterns there are, not at their order. -/
theorem Represents.congr {t : MappingTable} {R S : List (UrlPattern × String)} (h : Represents t R)
    (hRS : ∀ e, e ∈ R ↔ e ∈ S) : Represents t S where
  owner p servlet := by rw [← hRS, h.owner]
  sorted := h.sorted

/-! ### Registrations without conflicts -/

/-- Whether no two registrations of `l` give one pattern to different servlets. -/
def ConflictFree (l : List Registration) : Prop :=
  ∀ e ∈ l, ∀ f ∈ l, ∀ p, UrlPattern.parse e.1 = .ok p → UrlPattern.parse f.1 = .ok p → e.2 = f.2

/-- Of registrations one behind the other, the later ones are accepted or not by the table that the earlier ones left.
-/
theorem registered_append (t : MappingTable) (l m : List Registration) :
    t.registered (l ++ m) = t.registered l ++ (t.registerAll l).registered m := by
  induction l generalizing t with
  | nil => simp [registered]
  | cons e l ih => simp [registered, ih]

/-- What is accepted was registered, and could be read. -/
theorem exists_of_mem_registered {t : MappingTable} {l : List Registration} {p : UrlPattern}
    {servlet : String} (h : (p, servlet) ∈ t.registered l) :
    ∃ e ∈ l, UrlPattern.parse e.1 = .ok p ∧ e.2 = servlet := by
  induction l generalizing t with
  | nil => simp [registered] at h
  | cons e l ih =>
    rcases List.mem_append.1 h with he | hl
    · rcases t.register_cases e with ⟨ha, -, -⟩ | ⟨q, hq, ha, -, -⟩ | ⟨q, hq, ha, -, -⟩
      · simp [ha] at he
      · simp only [ha, Option.toList_some, List.mem_singleton, Prod.mk.injEq] at he
        exact ⟨e, List.mem_cons_self, he.1 ▸ hq, he.2.symm⟩
      · simp only [ha, Option.toList_some, List.mem_singleton, Prod.mk.injEq] at he
        exact ⟨e, List.mem_cons_self, he.1 ▸ hq, he.2.symm⟩
    · obtain ⟨f, hf, hp, hs⟩ := ih hl
      exact ⟨f, List.mem_cons_of_mem e hf, hp, hs⟩

/-- Without conflicts (`hl`) every registration whose pattern can be read is accepted. -/
theorem mem_registered_iff {l : List Registration} (hl : ConflictFree l) {p : UrlPattern}
    {servlet : String} : (p, servlet) ∈ empty.registered l ↔
      ∃ e ∈ l, UrlPattern.parse e.1 = .ok p ∧ e.2 = servlet := by
  refine ⟨exists_of_mem_registered, ?_⟩
  rintro ⟨e, he, hp, rfl⟩
  obtain ⟨before, after, rfl⟩ := List.append_of_mem he
  have hr := represents_registerAll before
  have hacc : (empty.registerAll before).accepted? e = some (p, e.2) := by
    rcases register_cases (empty.registerAll before) e with ⟨-, -, h⟩ | ⟨q, hq, h, -, -⟩ | ⟨q, hq, h, -, -⟩
    · -- A refusal would be for `other`, an earlier registration, with which this one conflicts.
      obtain ⟨other, ho, hne⟩ := h p hp
      obtain ⟨f, hf, hfp, rfl⟩ := exists_of_mem_registered ((hr.owner p other).2 ho)
      exact absurd (hl f (by simp [hf]) e (by simp) p hfp hp) hne
    · rw [h, Except.ok.inj (hq.symm.trans hp)]
    · rw [h, Except.ok.inj (hq.symm.trans hp)]
  rw [registered_append]
  simp [registered, hacc]

end MappingTable

end ServletContainer
