namespace ServletContainer

/-!
# Header fields

* `sameName` — names compare without regard to the case of ASCII letters.
* `Headers` — the fields in order; a name may repeat.
* `Headers.text` — the block that is sent: one line per name, spelled as first added, the values joined by commas.
-/

/-- Whether two header names are the same but for the case of ASCII letters. -/
def sameName (a b : String) : Bool := a.toList.map Char.toLower == b.toList.map Char.toLower

@[simp] theorem sameName_refl (a : String) : sameName a a = true := by simp [sameName]

theorem sameName_comm (a b : String) : sameName a b = sameName b a := BEq.comm

/-- One header field. -/
structure HeaderField where
  name : String
  value : String
  deriving DecidableEq, Repr

/-- An ordered list of header fields. -/
structure Headers where
  fields : List HeaderField
  deriving DecidableEq, Repr

namespace Headers

/-- No fields. -/
def empty : Headers := ⟨[]⟩

instance : Inhabited Headers := ⟨empty⟩

/-- Adds a field after the others, even if the name repeats. -/
def append (h : Headers) (name value : String) : Headers := ⟨h.fields ++ [⟨name, value⟩]⟩

/-- The fields without those called `name`. -/
def remove (h : Headers) (name : String) : Headers := ⟨h.fields.filter fun f => !sameName f.name name⟩

/-- Drops every field called `name`, then adds one. -/
def set (h : Headers) (name value : String) : Headers := (h.remove name).append name value

/-- The values of the fields called `name`, in order. -/
def getAll (h : Headers) (name : String) : List String :=
  (h.fields.filter fun f => sameName f.name name).map HeaderField.value

/-- The value of the first field called `name`. -/
def get? (h : Headers) (name : String) : Option String := (h.getAll name).head?

/-- Whether some field is called `name`. -/
def contains (h : Headers) (name : String) : Bool := h.fields.any fun f => sameName f.name name

/-- The number of fields. -/
def size (h : Headers) : Nat := h.fields.length

/-- Values with a comma between each two. -/
def joinValues : List String → String
  | [] => ""
  | [v] => v
  | v :: w :: r => v ++ "," ++ joinValues (w :: r)

/-- All values of `name` joined by commas, if there is a field called so. -/
def joined? (h : Headers) (name : String) : Option String :=
  match h.getAll name with
  | [] => none
  | v :: r => some (joinValues (v :: r))

/-- The first spelling of each name of a list of fields, in order. -/
def firstNames : List HeaderField → List String
  | [] => []
  | f :: r => f.name :: (firstNames r).filter fun n => !sameName n f.name

/-- The different names, spelled as first added. -/
def names (h : Headers) : List String := firstNames h.fields

/-- The line of one name. -/
def line (name values : String) : String := name ++ ": " ++ values ++ "\r\n"

/-- The header block without the blank line that ends it. -/
def text (h : Headers) : String :=
  String.join (h.names.map fun n => line n ((h.joined? n).getD ""))

/-! ### Views of the operations -/

theorem sameName_trans {a b c : String} (h : sameName a b = true) (h' : sameName b c = true) :
    sameName a c = true := by
  simp only [sameName, beq_iff_eq] at h h' ⊢
  exact h.trans h'

theorem contains_eq_true_iff (h : Headers) (n : String) : h.contains n = true ↔ h.getAll n ≠ [] := by
  simp [contains, getAll]

theorem getAll_append_of_sameName (h : Headers) {n m : String} (v : String) (hnm : sameName n m = true) :
    (h.append n v).getAll m = h.getAll m ++ [v] := by
  simp [getAll, append, List.filter_append, hnm]

theorem getAll_append_of_not_sameName (h : Headers) {n m : String} (v : String)
    (hnm : sameName n m = false) : (h.append n v).getAll m = h.getAll m := by
  simp [getAll, append, List.filter_append, hnm]

theorem getAll_remove_of_not_sameName (h : Headers) {n m : String} (hnm : sameName n m = false) :
    (h.remove n).getAll m = h.getAll m := by
  unfold getAll remove
  rw [List.filter_filter]
  congr 1
  refine List.filter_congr fun f _ => ?_
  -- A field called `m` cannot be called `n` as well.
  cases hm : sameName f.name m with
  | false => rfl
  | true =>
    have hn : sameName f.name n = false := by
      rw [Bool.eq_false_iff]
      intro hn
      rw [sameName_comm] at hn
      simp [sameName_trans hn hm] at hnm
    simp [hn]

theorem getAll_set_of_not_sameName (h : Headers) {n m : String} (v : String)
    (hnm : sameName n m = false) : (h.set n v).getAll m = h.getAll m := by
  rw [set, getAll_append_of_not_sameName _ v hnm, getAll_remove_of_not_sameName h hnm]

@[simp] theorem getAll_append_same (h : Headers) (n v : String) :
    (h.append n v).getAll n = h.getAll n ++ [v] := by
  simp [getAll, append, List.filter_append]

@[simp] theorem contains_append_same (h : Headers) (n v : String) : (h.append n v).contains n = true := by
  simp [contains, append]

@[simp] theorem contains_remove_same (h : Headers) (n : String) : (h.remove n).contains n = false := by
  simp [contains, remove]

@[simp] theorem getAll_set_same (h : Headers) (n v : String) : (h.set n v).getAll n = [v] := by
  simp [getAll, set, append, remove, List.filter_append]

end Headers

end ServletContainer
