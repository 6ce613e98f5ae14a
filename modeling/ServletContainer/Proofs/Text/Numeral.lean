import Mathlib.Data.Nat.Digits.Defs
import ServletContainer.Text.Numeral

namespace ServletContainer.Text

/-!
# Numerals of any size

* `decimalValue` — the number that decimal digits denote.
* `IsNumeralOf` — some digits and nothing else, with the number they denote; zeros may stand in front.
* `readNumeral_of_isNumeralOf` — a numeral is read where its number is within the bound; else it is too large.
-/

/-- The number that the decimal digits `s` denote: the last digit counts once, the one before it ten times, and so on.
-/
def decimalValue (s : List Char) : Nat := Nat.ofDigits 10 (s.reverse.map fun c => c.toNat - '0'.toNat)

/-- Whether `s` is a decimal numeral of `n`. -/
structure IsNumeralOf (n : Nat) (s : List Char) : Prop where
  ne_nil : s ≠ []
  digits : ∀ c ∈ s, c.isDigit = true
  value : decimalValue s = n

@[simp] theorem decimalValue_nil : decimalValue [] = 0 := rfl

/-- The first digit counts for as many tens as digits follow it. -/
theorem decimalValue_cons (c : Char) (s : List Char) :
    decimalValue (c :: s) = (c.toNat - '0'.toNat) * 10 ^ s.length + decimalValue s := by
  simp only [decimalValue, List.reverse_cons, List.map_append, Nat.ofDigits_append, List.map_cons, List.map_nil,
    Nat.ofDigits_singleton, List.length_map, List.length_reverse]
  ring

/-- `readDigits` reads a digit (`hc`) if the number that it continues does not outgrow the bound. -/
theorem readDigits_cons {bound acc : Nat} {c : Char} (hc : c.isDigit = true) (r : List Char) :
    readDigits bound acc (c :: r) =
      if acc * 10 + (c.toNat - '0'.toNat) ≤ bound then readDigits bound (acc * 10 + (c.toNat - '0'.toNat)) r
      else .error .tooLarge := by
  simp [readDigits, digitValue?, hc]

/-- Digits (`hs`) are read to the end, unless the number that they continue outgrows the bound. By induction on the
digits, with the number read so far. -/
theorem readDigits_of_digits {bound acc : Nat} {s : List Char} (hs : ∀ c ∈ s, c.isDigit = true)
    (hacc : acc ≤ bound) :
    readDigits bound acc s =
      if acc * 10 ^ s.length + decimalValue s ≤ bound then .ok (acc * 10 ^ s.length + decimalValue s)
      else .error .tooLarge := by
  induction s generalizing acc with
  | nil => simp [readDigits, hacc]
  | cons c r ih =>
    have hvalue : acc * 10 ^ (c :: r).length + decimalValue (c :: r)
        = (acc * 10 + (c.toNat - '0'.toNat)) * 10 ^ r.length + decimalValue r := by
      rw [decimalValue_cons, List.length_cons]
      ring
    rw [readDigits_cons (hs c List.mem_cons_self), hvalue]
    by_cases hnext : acc * 10 + (c.toNat - '0'.toNat) ≤ bound
    · rw [if_pos hnext, ih (fun d hd => hs d (List.mem_cons_of_mem c hd)) hnext]
    · -- `acc` only grows with the digits that follow.
      have hgrows : acc * 10 + (c.toNat - '0'.toNat) ≤ (acc * 10 + (c.toNat - '0'.toNat)) * 10 ^ r.length :=
        Nat.le_mul_of_pos_right _ (Nat.pow_pos (by decide))
      rw [if_neg hnext, if_neg (by omega)]

/-- So `readNumeral` reads a numeral of `n` (`hs`) as `n`, unless `n` outgrows the bound. -/
theorem readNumeral_of_isNumeralOf {n : Nat} {s : List Char} (hs : IsNumeralOf n s) (bound : Nat) :
    readNumeral bound s = if n ≤ bound then .ok n else .error .tooLarge := by
  obtain ⟨hne, hdigits, rfl⟩ := hs
  cases s with
  | nil => exact absurd rfl hne
  | cons c r =>
    -- `'+'` is no digit, so the text is read from its first character on.
    have hplus : c ≠ '+' := by
      rintro rfl
      exact absurd (hdigits '+' List.mem_cons_self) (by decide)
    have hread : readNumeral bound (c :: r) = readDigits bound 0 (c :: r) := by
      rw [readNumeral]
      all_goals simp [hplus]
    rw [hread, readDigits_of_digits hdigits (Nat.zero_le bound), Nat.zero_mul, Nat.zero_add]

end ServletContainer.Text
