namespace ServletContainer

/-!
# Keyed tables

A finite table from keys to values, kept as a list of entries in which no key occurs twice.

* `Table.get?`, `Table.insert`, `Table.erase`, `Table.adjust`, `Table.filter` — the operations.
* `Table.get?_insert`, `Table.get?_erase`, `Table.get?_adjust`, `Table.get?_filter` — what each does to look-ups.
* `Table.size_insert_of_none`, `Table.size_erase`, `Table.size_adjust` — what an insertion, a removal and an adjustment
  do to the number of entries.
-/

/-- A table of entries with pairwise different keys. -/
structure Table (κ α : Type) where
  /-- The entries, oldest first. -/
  entries : List (κ × α)
  /-- No key occurs twice. -/
  nodup : (entries.map Prod.fst).Nodup

namespace Table

variable {κ α : Type}

/-- The table without entries. -/
def empty : Table κ α := ⟨[], by simp⟩

instance : Inhabited (Table κ α) := ⟨empty⟩

/-- The number of entries. -/
def size (t : Table κ α) : Nat := t.entries.length

/-- Whether there is no entry. -/
def isEmpty (t : Table κ α) : Bool := t.entries.isEmpty

/-- The keys, oldest first. -/
def keys (t : Table κ α) : List κ := t.entries.map Prod.fst

/-- Keeps the entries that satisfy `p`. -/
def filter (p : κ → α → Bool) (t : Table κ α) : Table κ α where
  entries := t.entries.filter fun e => p e.1 e.2
  nodup := t.nodup.sublist (List.filter_sublist.map _)

variable [DecidableEq κ]

/-- The value of the entry with this key in a list of entries. -/
def find? (k : κ) : List (κ × α) → Option α
  | [] => none
  | e :: r => if e.1 = k then some e.2 else find? k r

/-- The value stored under `k`. -/
def get? (t : Table κ α) (k : κ) : Option α := find? k t.entries

/-- Whether `k` has an entry. -/
def contains (t : Table κ α) (k : κ) : Bool := (t.get? k).isSome

/-- Removes the entry of `k`. -/
def erase (t : Table κ α) (k : κ) : Table κ α := t.filter fun k' _ => k' ≠ k

/-- Stores `v` under `k`, in place of what was there. -/
def insert (t : Table κ α) (k : κ) (v : α) : Table κ α where
  entries := (t.erase k).entries ++ [(k, v)]
  nodup := by
    rw [List.map_append, List.nodup_append]
    refine ⟨(t.erase k).nodup, by simp, ?_⟩
    intro a ha b hb
    simp only [List.map_cons, List.map_nil, List.mem_singleton] at hb
    obtain ⟨e, he, rfl⟩ := List.mem_map.1 ha
    have := (List.mem_filter.1 he).2
    simp only [ne_eq, decide_not, Bool.not_eq_eq_eq_not, Bool.not_true, decide_eq_false_iff_not] at this
    exact hb ▸ this

/-- Changes the value stored under `k`, if there is one. -/
def adjust (t : Table κ α) (k : κ) (f : α → α) : Table κ α where
  entries := t.entries.map fun e => if e.1 = k then (e.1, f e.2) else e
  nodup := by
    have h : (t.entries.map fun e => if e.1 = k then (e.1, f e.2) else e).map Prod.fst
        = t.entries.map Prod.fst := by
      rw [List.map_map]
      refine List.map_congr_left fun e _ => ?_
      by_cases he : e.1 = k <;> simp [Function.comp, he]
    rw [h]
    exact t.nodup

/-- The table of a list of pairs, in which later pairs replace earlier ones of the same key. -/
def ofList (l : List (κ × α)) : Table κ α := l.foldl (fun t e => t.insert e.1 e.2) empty

/-! ### Look-ups in lists of entries -/

theorem find?_append (k : κ) (l₁ l₂ : List (κ × α)) :
    find? k (l₁ ++ l₂) = (find? k l₁).or (find? k l₂) := by
  induction l₁ with
  | nil => simp [find?]
  | cons e r ih => by_cases h : e.1 = k <;> simp [find?, h, ih]

theorem find?_eq_none_iff (k : κ) (l : List (κ × α)) :
    find? k l = none ↔ k ∉ l.map Prod.fst := by
  induction l with
  | nil => simp [find?]
  | cons e r ih =>
    rw [List.map_cons, List.mem_cons, find?]
    by_cases h : e.1 = k
    · simp [h]
    · have h' : ¬ k = e.1 := fun he => h he.symm
      rw [if_neg h, ih]
      simp [h']

theorem find?_filter_self (k : κ) (l : List (κ × α)) :
    find? k (l.filter fun e => e.1 ≠ k) = none := by
  rw [find?_eq_none_iff]
  simp

theorem find?_filter_of_ne {k k' : κ} (h : k' ≠ k) (l : List (κ × α)) :
    find? k' (l.filter fun e => e.1 ≠ k) = find? k' l := by
  induction l with
  | nil => rfl
  | cons e r ih =>
    by_cases he : e.1 = k
    · have hne : ¬ e.1 = k' := fun h' => h (h'.symm.trans he)
      rw [List.filter_cons_of_neg (by simp [he]), ih, find?, if_neg hne]
    · rw [List.filter_cons_of_pos (by simp [he])]
      simp only [find?, ih]

theorem find?_filter (p : κ → α → Bool) (k : κ) {l : List (κ × α)} (h : (l.map Prod.fst).Nodup) :
    find? k (l.filter fun e => p e.1 e.2) = (find? k l).filter (p k) := by
  induction l with
  | nil => rfl
  | cons e r ih =>
    obtain ⟨hnot, hr⟩ := List.nodup_cons.1 h
    rw [List.filter_cons]
    by_cases he : e.1 = k
    · -- No later entry has the key, so dropping this one leaves none.
      have hnone : find? k r = none := (find?_eq_none_iff k r).2 (he ▸ hnot)
      by_cases hp : p k e.2 = true
      · simp [find?, he, hp, Option.filter]
      · simp [find?, he, hp, ih hr, hnone, Option.filter]
    · by_cases hp : p e.1 e.2 = true
      · simp [find?, he, hp, ih hr]
      · simp [find?, he, hp, ih hr]

/-! ### What each operation does to look-ups -/

@[simp] theorem get?_empty (k : κ) : (empty : Table κ α).get? k = none := rfl

theorem get?_filter (p : κ → α → Bool) (t : Table κ α) (k : κ) :
    (t.filter p).get? k = (t.get? k).filter (p k) :=
  find?_filter p k t.nodup

theorem get?_erase (t : Table κ α) (k k' : κ) :
    (t.erase k).get? k' = if k' = k then none else t.get? k' := by
  unfold get? erase filter
  by_cases h : k' = k
  · subst h
    simpa using find?_filter_self k' t.entries
  · simpa [h] using find?_filter_of_ne h t.entries

@[simp] theorem get?_erase_self (t : Table κ α) (k : κ) : (t.erase k).get? k = none := by
  simp [get?_erase]

theorem get?_insert (t : Table κ α) (k k' : κ) (v : α) :
    (t.insert k v).get? k' = if k' = k then some v else t.get? k' := by
  have h : (t.insert k v).get? k' = ((t.erase k).get? k').or (find? k' [(k, v)]) :=
    find?_append k' (t.erase k).entries [(k, v)]
  rw [h, get?_erase]
  by_cases hk : k' = k
  · simp [hk, find?]
  · have hk' : ¬ k = k' := fun h => hk h.symm
    simp [hk, hk', find?]

@[simp] theorem get?_insert_self (t : Table κ α) (k : κ) (v : α) :
    (t.insert k v).get? k = some v := by
  simp [get?_insert]

theorem get?_adjust (t : Table κ α) (k k' : κ) (f : α → α) :
    (t.adjust k f).get? k' = if k' = k then (t.get? k').map f else t.get? k' := by
  show find? k' (t.entries.map fun e => if e.1 = k then (e.1, f e.2) else e)
    = if k' = k then (find? k' t.entries).map f else find? k' t.entries
  induction t.entries with
  | nil => simp [find?]
  | cons e r ih =>
    by_cases hk : k' = k
    · subst hk
      by_cases he : e.1 = k' <;> simp_all [find?]
    · by_cases he : e.1 = k
      · have : ¬ k = k' := fun h => hk h.symm
        simp_all [find?]
      · simp_all [find?]

theorem contains_eq_true_iff (t : Table κ α) (k : κ) : t.contains k = true ↔ k ∈ t.keys := by
  rw [contains, Option.isSome_iff_ne_none, ne_eq, get?, find?_eq_none_iff, Classical.not_not, keys]

/-! ### Sizes -/

omit [DecidableEq κ] in
@[simp] theorem size_empty : (empty : Table κ α).size = 0 := rfl

@[simp] theorem size_adjust (t : Table κ α) (k : κ) (f : α → α) : (t.adjust k f).size = t.size := by
  simp [size, adjust]

theorem erase_entries_of_none {t : Table κ α} {k : κ} (h : t.get? k = none) :
    (t.erase k).entries = t.entries := by
  have hk := (find?_eq_none_iff k t.entries).1 h
  refine List.filter_eq_self.2 fun e he => ?_
  have : e.1 ≠ k := fun h => hk (h ▸ List.mem_map_of_mem he)
  simpa using this

theorem size_insert_of_none {t : Table κ α} {k : κ} (h : t.get? k = none) (v : α) :
    (t.insert k v).size = t.size + 1 := by
  simp [size, insert, erase_entries_of_none h]

theorem keys_erase (t : Table κ α) (k : κ) : (t.erase k).keys = t.keys.erase k := by
  have hnodup : t.keys.Nodup := t.nodup
  rw [hnodup.erase_eq_filter, keys, erase, filter, keys, List.filter_map]
  refine congrArg _ (List.filter_congr fun e _ => ?_)
  by_cases he : e.1 = k <;> simp [he]

theorem size_erase {t : Table κ α} {k : κ} (h : t.get? k ≠ none) : (t.erase k).size + 1 = t.size := by
  have hmem : k ∈ t.keys := (contains_eq_true_iff t k).1 (Option.isSome_iff_ne_none.2 h)
  have hlength : ∀ u : Table κ α, u.size = u.keys.length := fun u => (List.length_map _).symm
  have hpos : 0 < t.keys.length := List.length_pos_of_mem hmem
  rw [hlength, hlength, keys_erase, List.length_erase_of_mem hmem]
  omega

end Table

end ServletContainer
