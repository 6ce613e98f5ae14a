namespace ServletContainer

/-!
# Extensions

A store with one slot per type, for code that hands state down a chain. The types are named by a key.

* `Extensions.insert`, `Extensions.get?`, `Extensions.remove`, `Extensions.edit` — the operations on a slot.
-/

/-- Values of types `β k`, at most one for each key `k`. -/
structure Extensions (κ : Type) (β : κ → Type) where
  slots : List ((k : κ) × β k)

namespace Extensions

variable {κ : Type} {β : κ → Type} [DecidableEq κ]

/-- No values. -/
def empty : Extensions κ β := ⟨[]⟩

/-- The value of a key in a list of slots. -/
def find? (k : κ) : List ((k : κ) × β k) → Option (β k)
  | [] => none
  | ⟨k', v⟩ :: r => if h : k' = k then some (h ▸ v) else find? k r

/-- The value of a key. -/
def get? (e : Extensions κ β) (k : κ) : Option (β k) := find? k e.slots

/-- The values without that of a key. -/
def erase (e : Extensions κ β) (k : κ) : Extensions κ β := ⟨e.slots.filter fun s => s.1 ≠ k⟩

/-- Stores a value; gives the one that it replaces. -/
def insert (e : Extensions κ β) (k : κ) (v : β k) : Option (β k) × Extensions κ β :=
  (e.get? k, ⟨⟨k, v⟩ :: (e.erase k).slots⟩)

/-- Removes a value and gives it. -/
def remove (e : Extensions κ β) (k : κ) : Option (β k) × Extensions κ β := (e.get? k, e.erase k)

/-- Changes a value in place; gives the new one. -/
def edit (e : Extensions κ β) (k : κ) (f : β k → β k) : Option (β k) × Extensions κ β :=
  match e.get? k with
  | none => (none, e)
  | some v => (some (f v), (e.insert k (f v)).2)

omit [DecidableEq κ] in
/-- The number of values. -/
def size (e : Extensions κ β) : Nat := e.slots.length

@[simp] theorem get?_insert_self (e : Extensions κ β) (k : κ) (v : β k) :
    (e.insert k v).2.get? k = some v := by
  simp [insert, get?, find?]

end Extensions

end ServletContainer
