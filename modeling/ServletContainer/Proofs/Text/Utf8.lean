import ServletContainer.Text.Utf8

namespace ServletContainer.Text.Utf8

/-!
# Well-formed UTF-8

The bytes that `decode?` accepts are the encodings of texts, and it gives the text that they encode.

* `Reads` — the sequences of bytes that stand for one code point.
* `next_of_reads`, `exists_reads_of_next` — `next` reads just these.
* `Reads.encodeChar`, `exists_reads_encodeChar` — they are the encodings of characters.
* `mem_encode_iff`, `mem_of_mem_decodeLossy` — a byte below 128 stands for its own character alone, and this character
  for the byte.
* `decode?_eq_some_iff` — hence `decode?` inverts `encode`.
-/

/-! ### One character -/

/-- The bytes `a :: t` stand for a code point. -/
inductive Reads : (a : UInt8) → (t : List UInt8) → (code : Nat) → Prop
  | one {a : UInt8} : a < 0x80 → Reads a [] a.toNat
  | two {a b : UInt8} : 0xC2 ≤ a → a ≤ 0xDF → isTail b = true → Reads a [b] (a.toNat % 32 * 64 + low b)
  | three {a b c : UInt8} : 0xE0 ≤ a → a ≤ 0xEF → maySecond a b = true → isTail c = true →
    Reads a [b, c] ((a.toNat % 16 * 64 + low b) * 64 + low c)
  | four {a b c d : UInt8} : 0xF0 ≤ a → a ≤ 0xF4 → maySecond a b = true → isTail c = true → isTail d = true →
    Reads a [b, c, d] (((a.toNat % 8 * 64 + low b) * 64 + low c) * 64 + low d)

/-- `isTail` in numbers. -/
theorem isTail_iff {b : UInt8} : isTail b = true ↔ 128 ≤ b.toNat ∧ b.toNat ≤ 191 := by
  simp only [isTail, Bool.and_eq_true, decide_eq_true_eq, UInt8.le_iff_toNat_le, UInt8.reduceToNat]

/-- `maySecond` in numbers: four first bytes narrow the range of the second. -/
theorem maySecond_iff {a b : UInt8} : maySecond a b = true ↔ 128 ≤ b.toNat ∧ b.toNat ≤ 191 ∧
    (a.toNat = 224 → 160 ≤ b.toNat) ∧ (a.toNat = 237 → b.toNat ≤ 159) ∧
    (a.toNat = 240 → 144 ≤ b.toNat) ∧ (a.toNat = 244 → b.toNat ≤ 143) := by
  unfold maySecond
  simp only [← UInt8.toNat_inj, UInt8.reduceToNat]
  repeat' split
  all_goals simp only [isTail, Bool.and_eq_true, decide_eq_true_eq, UInt8.le_iff_toNat_le, UInt8.reduceToNat]
  all_goals omega

/-- `next` reads bytes that stand for a code point (`h`) as its character, and leaves what is behind them. One case for
each length. -/
theorem next_of_reads {a : UInt8} {t : List UInt8} {code : Nat} (h : Reads a t code) (r : List UInt8) :
    next a (t ++ r) = (some (Char.ofNat code), r) := by
  -- The lead byte tells the length, so all shorter branches of `next` are ruled out first.
  cases h with
  | one h => simp [next, h]
  | two h₁ h₂ hb =>
    have h₀ : ¬ a < 0x80 := by
      rw [UInt8.lt_iff_toNat_lt]
      rw [UInt8.le_iff_toNat_le] at h₁
      simp only [UInt8.reduceToNat] at *
      omega
    simp [next, h₀, h₁, h₂, hb]
  | three h₁ h₂ hb hc =>
    have h₀ : ¬ a < 0x80 ∧ ¬ a ≤ 0xDF := by
      simp only [UInt8.lt_iff_toNat_lt, UInt8.le_iff_toNat_le, UInt8.reduceToNat] at *
      omega
    simp [next, h₀, h₁, h₂, hb, hc]
  | four h₁ h₂ hb hc hd =>
    have h₀ : ¬ a < 0x80 ∧ ¬ a ≤ 0xDF ∧ ¬ a ≤ 0xEF := by
      simp only [UInt8.lt_iff_toNat_lt, UInt8.le_iff_toNat_le, UInt8.reduceToNat] at *
      omega
    simp [next, h₀, h₁, h₂, hb, hc, hd]

/-- And if `next` gives a character (`h`), it has read bytes that stand for it. -/
theorem exists_reads_of_next {a : UInt8} {rest r : List UInt8} {c : Char} (h : next a rest = (some c, r)) :
    ∃ t code, Reads a t code ∧ c = Char.ofNat code ∧ rest = t ++ r := by
  -- `a` tells how many bytes follow it; four of the branches give a character.
  unfold next at h
  repeat' split at h
  all_goals simp only [Prod.mk.injEq, Option.some.injEq, reduceCtorEq, false_and] at h
  all_goals obtain ⟨rfl, rfl⟩ := h
  · next ha => exact ⟨[], _, .one ha, rfl, rfl⟩
  · next ha _ b _ hb =>
    simp only [Bool.and_eq_true, decide_eq_true_eq] at ha
    exact ⟨[b], _, .two ha.1 ha.2 hb, rfl, rfl⟩
  · next ha _ b hb _ c _ hc =>
    simp only [Bool.and_eq_true, decide_eq_true_eq] at ha
    exact ⟨[b, c], _, .three ha.1 ha.2 hb hc, rfl, rfl⟩
  · next ha _ b hb _ c hc _ d _ hd =>
    simp only [Bool.and_eq_true, decide_eq_true_eq] at ha
    exact ⟨[b, c, d], _, .four ha.1 ha.2 hb hc hd, rfl, rfl⟩

/-! ### Code points -/

section CodePoints

variable {c : Char}

theorem utf8EncodeChar_one (h : c.toNat ≤ 0x7F) : String.utf8EncodeChar c = [UInt8.ofNat c.toNat] :=
  if_pos h

theorem utf8EncodeChar_two (h : 0x7F < c.toNat) (h' : c.toNat ≤ 0x7FF) : String.utf8EncodeChar c =
    [UInt8.ofNat (c.toNat / 64 % 32 + 192), UInt8.ofNat (c.toNat % 64 + 128)] :=
  (if_neg (Nat.not_le_of_lt h)).trans (if_pos h')

theorem utf8EncodeChar_three (h : 0x7FF < c.toNat) (h' : c.toNat ≤ 0xFFFF) : String.utf8EncodeChar c =
    [UInt8.ofNat (c.toNat / 4096 % 16 + 224), UInt8.ofNat (c.toNat / 64 % 64 + 128),
      UInt8.ofNat (c.toNat % 64 + 128)] :=
  (if_neg (show ¬ c.toNat ≤ 0x7F by omega)).trans ((if_neg (Nat.not_le_of_lt h)).trans (if_pos h'))

theorem utf8EncodeChar_four (h : 0xFFFF < c.toNat) : String.utf8EncodeChar c =
    [UInt8.ofNat (c.toNat / 262144 % 8 + 240), UInt8.ofNat (c.toNat / 4096 % 64 + 128),
      UInt8.ofNat (c.toNat / 64 % 64 + 128), UInt8.ofNat (c.toNat % 64 + 128)] :=
  (if_neg (show ¬ c.toNat ≤ 0x7F by omega)).trans
    ((if_neg (show ¬ c.toNat ≤ 0x7FF by omega)).trans (if_neg (Nat.not_le_of_lt h)))

end CodePoints

/-- A valid code point (`h`) is that of its character. -/
theorem toNat_char_ofNat {n : Nat} (h : n.isValidChar) : (Char.ofNat n).toNat = n := by
  rw [Char.ofNat, dif_pos h]
  rfl

/-- What stands for a code point (`h`) is the encoding of its character. One case for each length. -/
theorem Reads.encodeChar {a : UInt8} {t : List UInt8} {code : Nat} (h : Reads a t code) :
    String.utf8EncodeChar (Char.ofNat code) = a :: t := by
  -- `code` is a scalar value in each case, and writing it takes as many bytes as were read.
  cases h with
  | one h =>
    have h : a.toNat < 128 := h
    have hn : (Char.ofNat a.toNat).toNat = a.toNat := toNat_char_ofNat (.inl (by omega))
    rw [utf8EncodeChar_one (by omega), hn, UInt8.ofNat_toNat]
  | @two b h₁ h₂ hb =>
    have h₁ : 194 ≤ a.toNat := h₁
    have h₂ : a.toNat ≤ 223 := h₂
    rw [isTail_iff] at hb
    have hn : (Char.ofNat (a.toNat % 32 * 64 + low b)).toNat = a.toNat % 32 * 64 + low b :=
      toNat_char_ofNat (.inl (by unfold low; omega))
    unfold low at *
    rw [utf8EncodeChar_two (by omega) (by omega), hn]
    simp only [List.cons.injEq, and_true, ← UInt8.toNat_inj, UInt8.toNat_ofNat']
    omega
  | @three b c h₁ h₂ hb hc =>
    have h₁ : 224 ≤ a.toNat := h₁
    have h₂ : a.toNat ≤ 239 := h₂
    rw [maySecond_iff] at hb
    rw [isTail_iff] at hc
    have hn : (Char.ofNat ((a.toNat % 16 * 64 + low b) * 64 + low c)).toNat
        = (a.toNat % 16 * 64 + low b) * 64 + low c := by
      apply toNat_char_ofNat
      unfold low Nat.isValidChar
      omega
    unfold low at *
    rw [utf8EncodeChar_three (by omega) (by omega), hn]
    simp only [List.cons.injEq, and_true, ← UInt8.toNat_inj, UInt8.toNat_ofNat']
    omega
  | @four b c d h₁ h₂ hb hc hd =>
    have h₁ : 240 ≤ a.toNat := h₁
    have h₂ : a.toNat ≤ 244 := h₂
    rw [maySecond_iff] at hb
    rw [isTail_iff] at hc hd
    have hn : (Char.ofNat (((a.toNat % 8 * 64 + low b) * 64 + low c) * 64 + low d)).toNat
        = ((a.toNat % 8 * 64 + low b) * 64 + low c) * 64 + low d := by
      apply toNat_char_ofNat
      unfold low Nat.isValidChar
      omega
    unfold low at *
    rw [utf8EncodeChar_four (by omega), hn]
    simp only [List.cons.injEq, and_true, ← UInt8.toNat_inj, UInt8.toNat_ofNat']
    omega

theorem isValidChar_toNat (c : Char) : c.toNat < 0xD800 ∨ 0xDFFF < c.toNat ∧ c.toNat < 0x110000 := c.valid

theorem toNat_byte {n : Nat} (h : n < 256) : (UInt8.ofNat n).toNat = n := UInt8.toNat_ofNat_of_lt' h

theorem toNat_tail (n : Nat) : (UInt8.ofNat (n % 64 + 128)).toNat = n % 64 + 128 := toNat_byte (by omega)

/-- A byte of six bits behind 0x80 `isTail`. -/
theorem isTail_tail (n : Nat) : isTail (UInt8.ofNat (n % 64 + 128)) = true := by
  rw [isTail_iff, toNat_tail]
  omega

section Encodings

variable {n : Nat}

/-- The bytes of `utf8EncodeChar_one` stand for their code point. -/
theorem reads_one (h : n ≤ 0x7F) : Reads (UInt8.ofNat n) [] n := by
  have ha : (UInt8.ofNat n).toNat = n := toNat_byte (by omega)
  have hr := Reads.one (a := UInt8.ofNat n) (UInt8.lt_iff_toNat_lt.2 ?_)
  · rwa [ha] at hr
  · rw [ha]
    exact Nat.lt_succ_of_le h

/-- The bytes of `utf8EncodeChar_two` stand for their code point. -/
theorem reads_two (h : 0x7F < n) (h' : n ≤ 0x7FF) :
    Reads (UInt8.ofNat (n / 64 % 32 + 192)) [UInt8.ofNat (n % 64 + 128)] n := by
  have ha : (UInt8.ofNat (n / 64 % 32 + 192)).toNat = n / 64 % 32 + 192 := toNat_byte (by omega)
  have hr := Reads.two (a := UInt8.ofNat (n / 64 % 32 + 192)) (UInt8.le_iff_toNat_le.2 ?_)
    (UInt8.le_iff_toNat_le.2 ?_) (isTail_tail n)
  · simp only [low, ha, toNat_tail] at hr
    have hcode : (n / 64 % 32 + 192) % 32 * 64 + (n % 64 + 128) % 64 = n := by omega
    rwa [hcode] at hr
  · rw [ha]
    show 194 ≤ _
    omega
  · rw [ha]
    show _ ≤ 223
    omega

/-- The bytes of `utf8EncodeChar_three` stand for their code point, if it is no surrogate (`hn`). -/
theorem reads_three (h : 0x7FF < n) (h' : n ≤ 0xFFFF) (hn : n < 0xD800 ∨ 0xDFFF < n) :
    Reads (UInt8.ofNat (n / 4096 % 16 + 224))
      [UInt8.ofNat (n / 64 % 64 + 128), UInt8.ofNat (n % 64 + 128)] n := by
  have ha : (UInt8.ofNat (n / 4096 % 16 + 224)).toNat = n / 4096 % 16 + 224 := toNat_byte (by omega)
  have hr := Reads.three (a := UInt8.ofNat (n / 4096 % 16 + 224)) (b := UInt8.ofNat (n / 64 % 64 + 128))
    (UInt8.le_iff_toNat_le.2 ?_) (UInt8.le_iff_toNat_le.2 ?_) ?_ (isTail_tail n)
  · simp only [low, ha, toNat_tail] at hr
    have hcode : ((n / 4096 % 16 + 224) % 16 * 64 + (n / 64 % 64 + 128) % 64) * 64
        + (n % 64 + 128) % 64 = n := by omega
    rwa [hcode] at hr
  · rw [ha]
    show 224 ≤ _
    omega
  · rw [ha]
    show _ ≤ 239
    omega
  · -- `maySecond_iff`: the bounds on the second byte exclude over-long forms and surrogates.
    rw [maySecond_iff, ha, toNat_tail]
    omega

/-- The bytes of `utf8EncodeChar_four` stand for their code point. -/
theorem reads_four (h : 0xFFFF < n) (h' : n < 0x110000) :
    Reads (UInt8.ofNat (n / 262144 % 8 + 240))
      [UInt8.ofNat (n / 4096 % 64 + 128), UInt8.ofNat (n / 64 % 64 + 128), UInt8.ofNat (n % 64 + 128)] n := by
  have ha : (UInt8.ofNat (n / 262144 % 8 + 240)).toNat = n / 262144 % 8 + 240 := toNat_byte (by omega)
  have hr := Reads.four (a := UInt8.ofNat (n / 262144 % 8 + 240)) (b := UInt8.ofNat (n / 4096 % 64 + 128))
    (UInt8.le_iff_toNat_le.2 ?_) (UInt8.le_iff_toNat_le.2 ?_) ?_ (isTail_tail (n / 64)) (isTail_tail n)
  · simp only [low, ha, toNat_tail] at hr
    have hcode : (((n / 262144 % 8 + 240) % 8 * 64 + (n / 4096 % 64 + 128) % 64) * 64
        + (n / 64 % 64 + 128) % 64) * 64 + (n % 64 + 128) % 64 = n := by omega
    rwa [hcode] at hr
  · rw [ha]
    show 240 ≤ _
    omega
  · rw [ha]
    show _ ≤ 244
    omega
  · -- The same bounds exclude over-long forms and what is out of range.
    rw [maySecond_iff, ha, toNat_tail]
    omega

end Encodings

/-- So the encoding of a character stands for its code point, whatever its length. -/
theorem exists_reads_encodeChar (c : Char) : ∃ a t, String.utf8EncodeChar c = a :: t ∧ Reads a t c.toNat := by
  have hv := isValidChar_toNat c
  rcases Nat.lt_or_ge 0xFFFF c.toNat with h₃ | h₃
  · exact ⟨_, _, utf8EncodeChar_four h₃, reads_four h₃ (by omega)⟩
  · rcases Nat.lt_or_ge 0x7FF c.toNat with h₂ | h₂
    · exact ⟨_, _, utf8EncodeChar_three h₂ h₃, reads_three h₂ h₃ (by omega)⟩
    · rcases Nat.lt_or_ge 0x7F c.toNat with h₁ | h₁
      · exact ⟨_, _, utf8EncodeChar_two h₁ h₂, reads_two h₁ h₂⟩
      · exact ⟨_, _, utf8EncodeChar_one h₁, reads_one h₁⟩

/-! ### Texts -/

/-- So `next` reads the encoding of a character as this character. -/
theorem next_encodeChar (c : Char) : ∃ a t, String.utf8EncodeChar c = a :: t ∧
    ∀ r, next a (t ++ r) = (some c, r) := by
  obtain ⟨a, t, hc, hr⟩ := exists_reads_encodeChar c
  refine ⟨a, t, hc, fun r => ?_⟩
  rw [next_of_reads hr, Char.ofNat_toNat]

/-- So does `chars`, and then reads on. -/
theorem chars_encodeChar_append (c : Char) (r : List UInt8) :
    chars (String.utf8EncodeChar c ++ r) = some c :: chars r := by
  obtain ⟨a, t, hc, hn⟩ := next_encodeChar c
  rw [hc, List.cons_append, chars, hn]

/-- So `chars` reads the encoding of a text as its characters. -/
theorem chars_encode (s : String) : chars (encode s) = s.toList.map some := by
  unfold encode
  induction s.toList with
  | nil => simp [chars]
  | cons c l ih => rw [List.flatMap_cons, chars_encodeChar_append, ih, List.map_cons]

/-- `decodeLossy` loses nothing of what was encoded. -/
theorem decodeLossy_encode (s : String) : decodeLossy (encode s) = s := by
  rw [decodeLossy, chars_encode, List.map_map]
  exact (congrArg String.ofList (List.map_id _)).trans String.ofList_toList

/-- A byte below 128 (`hb`) occurs in the encoding of its own character alone. -/
theorem mem_encodeChar_iff {b : UInt8} (hb : b < 0x80) {c : Char} :
    b ∈ String.utf8EncodeChar c ↔ Char.ofNat b.toNat = c := by
  have hb : b.toNat < 128 := hb
  have hcode : Char.ofNat b.toNat = c ↔ b.toNat = c.toNat := by
    rw [← Char.toNat_inj, toNat_char_ofNat (.inl (by omega))]
  have hv := isValidChar_toNat c
  rw [hcode]
  rcases Nat.lt_or_ge 0x7F c.toNat with h₁ | h₁
  · -- All bytes of a longer `utf8EncodeChar` are 128 or above.
    suffices h : ∀ d ∈ String.utf8EncodeChar c, 128 ≤ d.toNat by
      exact ⟨fun hmem => absurd (h b hmem) (by omega), fun hbc => by omega⟩
    rcases Nat.lt_or_ge 0x7FF c.toNat with h₂ | h₂
    · rcases Nat.lt_or_ge 0xFFFF c.toNat with h₃ | h₃
      · simp only [utf8EncodeChar_four h₃, List.forall_mem_cons, toNat_tail, UInt8.toNat_ofNat']
        refine ⟨by omega, by omega, by omega, by omega, by simp⟩
      · simp only [utf8EncodeChar_three h₂ h₃, List.forall_mem_cons, toNat_tail, UInt8.toNat_ofNat']
        refine ⟨by omega, by omega, by omega, by simp⟩
    · simp only [utf8EncodeChar_two h₁ h₂, List.forall_mem_cons, toNat_tail, UInt8.toNat_ofNat']
      refine ⟨by omega, by omega, by simp⟩
  · rw [utf8EncodeChar_one h₁, List.mem_singleton, ← UInt8.toNat_inj, toNat_byte (by omega)]

theorem mem_encode_iff {b : UInt8} (hb : b < 0x80) {s : String} : b ∈ encode s ↔ Char.ofNat b.toNat ∈ s.toList := by
  simp only [encode, List.mem_flatMap, mem_encodeChar_iff hb, exists_eq_right']

/-- The bytes that `next` leaves are some of those that there were. -/
theorem next_subset (a : UInt8) (rest : List UInt8) : (next a rest).2 ⊆ rest := by
  unfold next
  repeat' split
  all_goals simp +contextual [List.subset_def]

/-- A character below 128 is read where its own byte stands. -/
theorem mem_of_mem_chars {b : UInt8} (hb : b < 0x80) {bs : List UInt8} (h : some (Char.ofNat b.toNat) ∈ chars bs) :
    b ∈ bs := by
  fun_induction chars bs with
  | case1 => cases h
  | case2 a r ih =>
    rcases List.mem_cons.1 h with hfirst | hrest
    · obtain ⟨t, code, hreads, hchar, ht⟩ := exists_reads_of_next (Prod.ext hfirst.symm rfl)
      have hmem := (mem_encodeChar_iff hb).2 hchar
      rw [hreads.encodeChar] at hmem
      rw [ht, ← List.cons_append]
      exact List.mem_append_left _ hmem
    · exact List.mem_cons_of_mem a (next_subset a r (ih hrest))

/-- So `decodeLossy` gives such a character only there: the one that replaces what is not well formed is not below 128.
-/
theorem mem_of_mem_decodeLossy {b : UInt8} (hb : b < 0x80) {bs : List UInt8}
    (h : Char.ofNat b.toNat ∈ (decodeLossy bs).toList) : b ∈ bs := by
  rw [decodeLossy, String.toList_ofList, List.mem_map] at h
  obtain ⟨c, hc, hchar⟩ := h
  cases c with
  | some c => exact mem_of_mem_chars hb (hchar ▸ hc)
  | none =>
    have hb : b.toNat < 128 := hb
    have hcode : (Char.ofNat 0xFFFD).toNat = b.toNat := by
      rw [show Char.ofNat 0xFFFD = Char.ofNat b.toNat from hchar, toNat_char_ofNat (.inl (by omega))]
    rw [show (Char.ofNat 0xFFFD).toNat = 0xFFFD from rfl] at hcode
    omega

/-- Bytes in which every part is well formed (`h`) are the encoding of their characters. -/
theorem eq_flatMap_of_chars {bs : List UInt8} {l : List Char} (h : chars bs = l.map some) :
    bs = l.flatMap String.utf8EncodeChar := by
  induction l generalizing bs with
  | nil =>
    cases bs with
    | nil => rfl
    | cons a r => simp [chars] at h
  | cons c l ih =>
    cases bs with
    | nil => simp [chars] at h
    | cons a r =>
      rw [chars, List.map_cons, List.cons.injEq] at h
      obtain ⟨t, code, hr, hc, ht⟩ := exists_reads_of_next (Prod.ext h.1 rfl)
      rw [List.flatMap_cons, ← ih h.2, hc, hr.encodeChar, List.cons_append, ← ht]

/-- All of a list is there if and only if none of it is missing. -/
theorem mapM_id_eq_some_iff {l : List (Option Char)} {m : List Char} : l.mapM id = some m ↔ l = m.map some := by
  induction l generalizing m with
  | nil => cases m <;> simp
  | cons o l ih =>
    -- One `none` makes both sides fail, whatever follows.
    cases o with
    | none => cases m <;> simp
    | some c =>
      simp only [List.mapM_cons, id_eq, Option.bind_eq_bind, Option.bind_some, Option.pure_def,
        Option.bind_eq_some_iff, ih]
      cases m with
      | nil => simp
      | cons d m =>
        simp only [Option.some.injEq, List.cons.injEq, List.map_cons]
        constructor
        · rintro ⟨n, rfl, rfl, rfl⟩
          exact ⟨rfl, rfl⟩
        · rintro ⟨rfl, rfl⟩
          exact ⟨m, rfl, rfl, rfl⟩

/-- **Decoding.** `decode?` gives a text if and only if the bytes are the encoding of this text. -/
theorem decode?_eq_some_iff {bs : List UInt8} {s : String} : decode? bs = some s ↔ bs = encode s := by
  simp only [decode?, Option.map_eq_some_iff, mapM_id_eq_some_iff]
  constructor
  · rintro ⟨l, hl, rfl⟩
    rw [encode, String.toList_ofList]
    exact eq_flatMap_of_chars hl
  · rintro rfl
    exact ⟨s.toList, chars_encode s, String.ofList_toList⟩

end ServletContainer.Text.Utf8
