import Mathlib.Logic.Function.Basic
import ServletContainer.Session.Identifier

namespace ServletContainer

/-!
# What session ids look like

* `IsHexText`, `isHexText_id`, `length_id` — an id is a text of thirty-two upper-case hexadecimal digits.
* `id_injective` — different blocks have different ids.
-/

/-- Whether `s` consists of upper-case hexadecimal digits. -/
def IsHexText (s : String) : Prop := ∀ c ∈ s.toList, c ∈ "0123456789ABCDEF".toList

/-! ### Digits -/

/-- `hexDigit` gives one of the sixteen digits. -/
theorem hexDigit_mem {n : Nat} (h : n < 16) : hexDigit n ∈ "0123456789ABCDEF".toList := by
  have hall : ∀ n : Fin 16, hexDigit n ∈ "0123456789ABCDEF".toList := by decide
  exact hall ⟨n, h⟩

/-- Different numbers have different digits; there are few enough to look at all. -/
theorem hexDigit_inj {m n : Nat} (hm : m < 16) (hn : n < 16) (h : hexDigit m = hexDigit n) : m = n := by
  have hall : ∀ m n : Fin 16, hexDigit m = hexDigit n → m = n := by decide
  exact congrArg Fin.val (hall ⟨m, hm⟩ ⟨n, hn⟩ h)

/-- A byte is the number that its two digits write. -/
theorem hexByte_injective : Function.Injective hexByte := by
  intro a b h
  have ha : a.toNat < 256 := a.toNat_lt
  have hb : b.toNat < 256 := b.toNat_lt
  obtain ⟨hhigh, hlow⟩ : hexDigit (a.toNat / 16) = hexDigit (b.toNat / 16) ∧
      hexDigit (a.toNat % 16) = hexDigit (b.toNat % 16) := by simpa [hexByte] using h
  have hdiv := hexDigit_inj (by omega) (by omega) hhigh
  have hmod := hexDigit_inj (by omega) (by omega) hlow
  exact UInt8.toNat_inj.1 (by omega)

/-- Since every byte takes two digits, no two lists of bytes have the same digits. By induction on the first list. -/
theorem flatMap_hexByte_injective : Function.Injective (List.flatMap hexByte) := by
  intro as
  induction as with
  | nil =>
    intro bs h
    cases bs with
    | nil => rfl
    | cons b bs => simp [hexByte] at h
  | cons a as ih =>
    intro bs h
    cases bs with
    | nil => simp [hexByte] at h
    | cons b bs =>
      rw [List.flatMap_cons, List.flatMap_cons] at h
      -- `hexByte` is always two digits, so both texts are cut at the same place.
      obtain ⟨hbyte, hrest⟩ := List.append_inj h rfl
      rw [hexByte_injective hbyte, ih hrest]

/-! ### Ids -/

/-- An id is a text of hexadecimal digits. -/
theorem isHexText_id (b : Block) : IsHexText b.id := by
  intro c hc
  rw [Block.id, String.toList_ofList, List.mem_flatMap] at hc
  obtain ⟨byte, -, hc⟩ := hc
  have hbyte : byte.toNat < 256 := byte.toNat_lt
  simp only [hexByte, List.mem_cons, List.not_mem_nil, or_false] at hc
  rcases hc with rfl | rfl
  · exact hexDigit_mem (by omega)
  · exact hexDigit_mem (by omega)

/-- An id has thirty-two digits, two for each of sixteen bytes. -/
theorem length_id (b : Block) : b.id.length = 32 := by
  have hlength : ∀ bytes : List UInt8, (bytes.flatMap hexByte).length = 2 * bytes.length := by
    intro bytes
    induction bytes with
    | nil => rfl
    | cons a bytes ih =>
      rw [List.flatMap_cons, List.length_append, ih, List.length_cons]
      simp only [hexByte, List.length_cons, List.length_nil]
      omega
  rw [Block.id, String.length_ofList, hlength, Vector.length_toList]

/-- **Injectivity.** No two blocks share an id. -/
theorem id_injective : Function.Injective Block.id := by
  intro a b h
  exact Vector.toList_inj.1 (flatMap_hexByte_injective (String.ofList_injective h))

end ServletContainer
