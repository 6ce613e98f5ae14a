import ServletContainer.Proofs.Text.Utf8
import ServletContainer.Text.Base64

namespace ServletContainer.Text.Base64

/-!
# Strict base64

The texts that `decode?` accepts are the texts of lists of bytes, and it gives the list whose text it is.

* `value?_eq_some_iff` — digits and their values.
* `decode?_group`, `encode_group` — one group of four digits in front of others, read and written.
* `decode?_encode`, `encode_of_decode?` — hence reading undoes writing, and writing undoes reading.
* `mem_encode` — a text consists of digits and padding.
-/

/-! ### Digits -/

/-- `value?` reads the one `digit` that each value below 64 has. -/
theorem value?_eq_some_iff {c : Char} {n : Nat} : value? c = some n ↔ n < 64 ∧ c = digit n := by
  constructor
  · intro h
    have hc : Char.ofNat c.toNat = c := Char.ofNat_toNat c
    unfold value? at h
    unfold digit
    simp only [Char.reduceToNat] at h ⊢
    split at h <;> grind
  · rintro ⟨hn, rfl⟩
    exact value?_digit hn

/-- Padding is no digit. -/
theorem digit_ne_pad {n : Nat} (h : n < 64) : digit n ≠ '=' := by
  intro hpad
  have hvalue := value?_digit h
  rw [hpad] at hvalue
  cases hvalue

/-! ### Groups -/

section Groups

variable {x y z w : Nat} (hx : x < 64) (hy : y < 64) (hz : z < 64) (hw : w < 64)

include hx hy hz hw

/-- Four digits are read as three bytes, whatever follows (`t`). -/
theorem decode?_group (t : List Char) :
    decode? (digit x :: digit y :: digit z :: digit w :: t) = (decode? t).map (groupBytes x y z w ++ ·) := by
  cases t with
  | nil => simp [decode?, lastGroup?, value?_digit, digit_ne_pad, hx, hy, hz, hw]
  | cons c t =>
    rw [decode?, value?_digit hx, value?_digit hy, value?_digit hz, value?_digit hw]
    · cases decode? (c :: t) <;> rfl
    · simp

/-- And these three bytes are written as the four digits. -/
theorem encode_group (s : List UInt8) :
    encode (groupBytes x y z w ++ s) = digit x :: digit y :: digit z :: digit w :: encode s := by
  have ha : (UInt8.ofNat (x * 4 + y / 16)).toNat = x * 4 + y / 16 := Utf8.toNat_byte (by omega)
  have hb : (UInt8.ofNat (y % 16 * 16 + z / 4)).toNat = y % 16 * 16 + z / 4 := Utf8.toNat_byte (by omega)
  have hc : (UInt8.ofNat (z % 4 * 64 + w)).toNat = z % 4 * 64 + w := Utf8.toNat_byte (by omega)
  have h₁ : (x * 4 + y / 16) / 4 = x := by omega
  have h₂ : (x * 4 + y / 16) % 4 * 16 + (y % 16 * 16 + z / 4) / 16 = y := by omega
  have h₃ : (y % 16 * 16 + z / 4) % 16 * 4 + (z % 4 * 64 + w) / 64 = z := by omega
  have h₄ : (z % 4 * 64 + w) % 64 = w := by omega
  simp only [groupBytes, List.cons_append, List.nil_append, encode, ha, hb, hc, h₁, h₂, h₃, h₄]

end Groups

/-- A last group (`h`) is the text of the bytes that it is read as. One case for each number of bytes. -/
theorem encode_of_lastGroup? {a b c d : Char} {s : List UInt8} (h : lastGroup? a b c d = some s) :
    encode s = [a, b, c, d] := by
  simp only [lastGroup?, Option.bind_eq_bind, Option.bind_eq_some_iff, value?_eq_some_iff] at h
  obtain ⟨x, ⟨hx, rfl⟩, y, ⟨hy, rfl⟩, h⟩ := h
  have ha : (UInt8.ofNat (x * 4 + y / 16)).toNat = x * 4 + y / 16 := Utf8.toNat_byte (by omega)
  have h₁ : (x * 4 + y / 16) / 4 = x := by omega
  split at h
  · next hpad =>
    -- One byte: by `hzero` the low bits of the second digit, which stand for nothing, are zero.
    obtain ⟨rfl, rfl⟩ := hpad
    obtain ⟨hzero, hs⟩ := Option.ite_none_right_eq_some.1 h
    obtain rfl := Option.some.inj hs
    have h₂ : (x * 4 + y / 16) % 4 * 16 = y := by omega
    simp only [encode, ha, h₁, h₂]
  · simp only [Option.bind_eq_some_iff, value?_eq_some_iff] at h
    obtain ⟨z, ⟨hz, rfl⟩, h⟩ := h
    split at h
    · next hpad =>
      -- Two bytes: now it is the third digit that has such bits.
      subst hpad
      obtain ⟨hzero, hs⟩ := Option.ite_none_right_eq_some.1 h
      obtain rfl := Option.some.inj hs
      have hb : (UInt8.ofNat (y % 16 * 16 + z / 4)).toNat = y % 16 * 16 + z / 4 := Utf8.toNat_byte (by omega)
      have h₂ : (x * 4 + y / 16) % 4 * 16 + (y % 16 * 16 + z / 4) / 16 = y := by omega
      have h₃ : (y % 16 * 16 + z / 4) % 16 * 4 = z := by omega
      simp only [encode, ha, hb, h₁, h₂, h₃]
    · simp only [Option.bind_eq_some_iff, value?_eq_some_iff] at h
      obtain ⟨w, ⟨hw, rfl⟩, h⟩ := h
      obtain rfl := Option.some.inj h
      exact encode_group hx hy hz hw []

/-! ### Texts -/

/-- Reading undoes writing. By the recursion of `encode`, which takes three bytes at a time. -/
theorem decode?_encode (s : List UInt8) : decode? (encode s) = some s := by
  fun_induction encode s with
  | case1 => rfl
  | case2 a =>
    have ha := a.toNat_lt
    -- `a` is left alone: six bits and two, with four trailing zeros.
    have h₁ : a.toNat / 4 * 4 + a.toNat % 4 * 16 / 16 = a.toNat := by omega
    have h₂ : a.toNat % 4 * 16 % 16 = 0 := by omega
    rw [decode?, lastGroup?, value?_digit (by omega), value?_digit (by omega)]
    simp only [Option.bind_eq_bind, Option.bind_some, and_self, if_true, h₁, h₂, UInt8.ofNat_toNat]
  | case3 a b =>
    have ha := a.toNat_lt
    have hb := b.toNat_lt
    have h₁ : a.toNat / 4 * 4 + (a.toNat % 4 * 16 + b.toNat / 16) / 16 = a.toNat := by omega
    have h₂ : (a.toNat % 4 * 16 + b.toNat / 16) % 16 * 16 + b.toNat % 16 * 4 / 4 = b.toNat := by omega
    -- `a` and `b` are left, and the two trailing bits are zero.
    have h₃ : b.toNat % 16 * 4 % 4 = 0 := by omega
    rw [decode?, lastGroup?, value?_digit (by omega), value?_digit (by omega), value?_digit (by omega)]
    have hpad : digit (b.toNat % 16 * 4) ≠ '=' := digit_ne_pad (by omega)
    simp only [Option.bind_eq_bind, Option.bind_some, hpad, false_and, if_false, if_true, h₁, h₂, h₃, UInt8.ofNat_toNat]
  | case4 a b c r ih =>
    have ha := a.toNat_lt
    have hb := b.toNat_lt
    have hc := c.toNat_lt
    have h₁ : a.toNat / 4 * 4 + (a.toNat % 4 * 16 + b.toNat / 16) / 16 = a.toNat := by omega
    have h₂ : (a.toNat % 4 * 16 + b.toNat / 16) % 16 * 16 + (b.toNat % 16 * 4 + c.toNat / 64) / 4 = b.toNat := by
      omega
    have h₃ : (b.toNat % 16 * 4 + c.toNat / 64) % 4 * 64 + c.toNat % 64 = c.toNat := by omega
    rw [decode?_group (by omega) (by omega) (by omega) (by omega), ih]
    simp only [Option.map_some, groupBytes, h₁, h₂, h₃, UInt8.ofNat_toNat, List.cons_append, List.nil_append]

/-- Writing undoes reading. -/
theorem encode_of_decode? {t : List Char} {s : List UInt8} (h : decode? t = some s) : encode s = t := by
  fun_induction decode? t generalizing s with
  | case1 =>
    obtain rfl := Option.some.inj h
    rfl
  | case2 a b c d => exact encode_of_lastGroup? h
  | case3 a b c d r hr ih =>
    simp only [Option.bind_eq_bind, Option.bind_eq_some_iff, value?_eq_some_iff] at h
    obtain ⟨x, ⟨hx, rfl⟩, y, ⟨hy, rfl⟩, z, ⟨hz, rfl⟩, w, ⟨hw, rfl⟩, rest, hrest, hs⟩ := h
    obtain rfl := Option.some.inj hs
    rw [encode_group hx hy hz hw, ih hrest]
  | case4 => simp at h

/-- **Strict base64.** A text is read exactly if it is the text of a list of bytes, which is then the one that it is
read as. -/
theorem decode?_eq_some_iff {t : List Char} {s : List UInt8} : decode? t = some s ↔ t = encode s := by
  constructor
  · exact fun h => (encode_of_decode? h).symm
  · rintro rfl
    exact decode?_encode s

example : decode? "dXNlcjpwYXNz".toList = some (Utf8.encode "user:pass") := by decide

theorem encode_eq_nil_iff {s : List UInt8} : encode s = [] ↔ s = [] := by
  fun_cases encode s <;> simp

/-- A text consists of digits and padding. -/
theorem mem_encode {s : List UInt8} {c : Char} (h : c ∈ encode s) : c = '=' ∨ ∃ n < 64, c = digit n := by
  -- Every argument of `digit` is below 64 because a byte is below 256.
  fun_induction encode s with
  | case1 => cases h
  | case2 a =>
    have ha := a.toNat_lt
    simp only [List.mem_cons, List.not_mem_nil, or_false] at h
    rcases h with rfl | rfl | rfl | rfl
    · exact .inr ⟨_, by omega, rfl⟩
    · exact .inr ⟨_, by omega, rfl⟩
    · exact .inl rfl
    · exact .inl rfl
  | case3 a b =>
    have ha := a.toNat_lt
    have hb := b.toNat_lt
    simp only [List.mem_cons, List.not_mem_nil, or_false] at h
    rcases h with rfl | rfl | rfl | rfl
    · exact .inr ⟨_, by omega, rfl⟩
    · exact .inr ⟨_, by omega, rfl⟩
    · exact .inr ⟨_, by omega, rfl⟩
    · exact .inl rfl
  | case4 a b c r ih =>
    have ha := a.toNat_lt
    have hb := b.toNat_lt
    have hc := c.toNat_lt
    simp only [List.mem_cons] at h
    rcases h with rfl | rfl | rfl | rfl | h
    · exact .inr ⟨_, by omega, rfl⟩
    · exact .inr ⟨_, by omega, rfl⟩
    · exact .inr ⟨_, by omega, rfl⟩
    · exact .inr ⟨_, by omega, rfl⟩
    · exact ih h

end ServletContainer.Text.Base64
