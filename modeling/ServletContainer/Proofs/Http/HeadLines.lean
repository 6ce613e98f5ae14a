import ServletContainer.Http.RequestHead
import ServletContainer.Proofs.Http.Folding
import ServletContainer.Proofs.Text.Utf8

namespace ServletContainer

/-!
# The lines of a head

A head is cut at its line ends. The first blank line ends it.

* `StaysOnLine` — a text without line ends.
* `linesOf` — the lines of header fields, and the blank line behind them.
* `cutHead` — the lines in front of the first blank line, and what follows it.
* `cutHead_linesOf` — fields that stay on their lines have one line each.
* `endless_of_cutHead` — no line that is cut off has a line end within it.
* `Headers.keepsToLine_folded_iff` — joining the fields of a name brings no line ends in, and leaves none out.
-/

/-! ### Texts without line ends -/

/-- Whether `s` keeps to one line. -/
def StaysOnLine (s : String) : Prop := '\r' ∉ s.toList ∧ '\n' ∉ s.toList

instance (s : String) : Decidable (StaysOnLine s) := inferInstanceAs (Decidable (_ ∧ _))

/-- `StaysOnLine` splits over `++`. -/
theorem staysOnLine_append_iff {s t : String} : StaysOnLine (s ++ t) ↔ StaysOnLine s ∧ StaysOnLine t := by
  simp only [StaysOnLine, String.toList_append, List.mem_append, not_or]
  exact ⟨fun h => ⟨⟨h.1.1, h.2.1⟩, h.1.2, h.2.2⟩, fun h => ⟨⟨h.1.1, h.2.1⟩, h.1.2, h.2.2⟩⟩

/-- Two texts that keep to one line (`hs`, `ht`) do so together. -/
theorem StaysOnLine.append {s t : String} (hs : StaysOnLine s) (ht : StaysOnLine t) : StaysOnLine (s ++ t) :=
  staysOnLine_append_iff.2 ⟨hs, ht⟩

/-- Whether `bs` has no line end. -/
def Endless (bs : Bytes) : Prop := 13 ∉ bs ∧ 10 ∉ bs

/-- The bytes of a text are `Endless` if and only if the text `StaysOnLine`: UTF-8 has 13 and 10 for these two
characters alone. -/
theorem endless_encode_iff {s : String} : Endless (Text.Utf8.encode s) ↔ StaysOnLine s :=
  and_congr (not_congr (Text.Utf8.mem_encode_iff (by decide))) (not_congr (Text.Utf8.mem_encode_iff (by decide)))

/-- The bytes of a line with its end, split in front of the feed, where `readLine` and `cutHead` look for it. -/
theorem encode_line_append (s : String) (rest : Bytes) :
    Text.Utf8.encode (s ++ "\r\n") ++ rest = (Text.Utf8.encode s ++ [13]) ++ 10 :: rest := by
  have hend : Text.Utf8.encode "\r\n" = [13, 10] := by decide
  rw [Text.Utf8.encode_append, hend]
  simp

/-! ### Cutting -/

/-- The lines in front of the first blank line, and what follows it; of the first line, `line` is known already. -/
def cutFrom (line : Bytes) : Bytes → Option (List Bytes × Bytes)
  | [] => none
  | 13 :: 10 :: rest | 13 :: rest | 10 :: rest =>
    if line = [] then some ([], rest) else (cutFrom [] rest).map fun p => (line :: p.1, p.2)
  | b :: rest => cutFrom (line ++ [b]) rest

/-- The lines of `bs` in front of the first blank line, and what follows it; none where no line is blank. A line ends
with a carriage return, a line feed, or the one and then the other. -/
def cutHead (bs : Bytes) : Option (List Bytes × Bytes) := cutFrom [] bs

/-- A byte that is no line end goes into the line so far. -/
theorem cutFrom_cons {b : UInt8} (hreturn : b ≠ 13) (hfeed : b ≠ 10) (line rest : Bytes) :
    cutFrom line (b :: rest) = cutFrom (line ++ [b]) rest := by
  rw [cutFrom]
  · exact fun _ h _ => hreturn h
  · exact hreturn
  · exact hfeed

/-- All bytes of `p` go into the line so far if they are `Endless` (`hp`), by induction on `p`. -/
theorem cutFrom_append {p : Bytes} (hp : Endless p) (line rest : Bytes) :
    cutFrom line (p ++ rest) = cutFrom (line ++ p) rest := by
  induction p generalizing line with
  | nil => simp
  | cons b p ih =>
    obtain ⟨⟨hreturn, hreturns⟩, hfeed, hfeeds⟩ : (13 ≠ b ∧ 13 ∉ p) ∧ 10 ≠ b ∧ 10 ∉ p := by simpa [Endless] using hp
    rw [List.cons_append, cutFrom_cons hreturn.symm hfeed.symm, ih ⟨hreturns, hfeeds⟩, List.append_assoc]
    rfl

/-- `cutHead` cuts a text off as a line if it `StaysOnLine` (`hs`) and is not empty (`hne`). -/
theorem cutHead_text {s : String} (hs : StaysOnLine s) (hne : Text.Utf8.encode s ≠ []) (rest : Bytes) :
    cutHead (Text.Utf8.encode (s ++ "\r\n") ++ rest)
      = (cutHead rest).map fun p => (Text.Utf8.encode s :: p.1, p.2) := by
  rw [encode_line_append, List.append_assoc, cutHead, cutFrom_append (endless_encode_iff.2 hs), List.nil_append]
  exact if_neg hne

theorem cutHead_blank (rest : Bytes) : cutHead (Text.Utf8.encode "\r\n" ++ rest) = some ([], rest) := rfl

/-- No line that `cutFrom` cuts off has a line end within it, if the bytes known of the first one have none (`hline`).
-/
theorem endless_of_cutFrom {line bs : Bytes} {lines : List Bytes} {rest : Bytes} (hline : Endless line)
    (h : cutFrom line bs = some (lines, rest)) : ∀ l ∈ lines, Endless l := by
  have hnil : Endless [] := by simp [Endless]
  -- By induction on `bs`: a line end adds `line` to `lines`, which the other bytes have gone into.
  fun_induction cutFrom line bs generalizing lines rest with
  | case1 => cases h
  | case2 | case4 | case6 =>
    obtain ⟨rfl, -⟩ := Prod.mk.inj (Option.some.inj h)
    simp
  | case3 | case5 | case7 =>
    rename_i ih
    obtain ⟨p, hp, heq⟩ := Option.map_eq_some_iff.1 h
    obtain ⟨rfl, -⟩ := Prod.mk.inj heq
    intro l hl
    rcases List.mem_cons.1 hl with rfl | hl
    · exact hline
    · exact ih hnil hp l hl
  | case8 line b rest _ hreturn hfeed ih =>
    have hmore : Endless (line ++ [b]) := by
      simpa [Endless, hline.1, hline.2] using And.intro (Ne.symm hreturn) (Ne.symm hfeed)
    exact ih hmore h

/-- So no line of `cutHead` has. -/
theorem endless_of_cutHead {bs : Bytes} {lines : List Bytes} {rest : Bytes} (h : cutHead bs = some (lines, rest)) :
    ∀ l ∈ lines, Endless l :=
  endless_of_cutFrom (by simp [Endless]) h

/-! ### Lines of fields -/

/-- The lines of `fields`, and the blank line that ends them. -/
def linesOf (fields : List HeaderField) : String :=
  String.join (fields.map fun f => Headers.line f.name f.value) ++ "\r\n"

/-- The bytes of `linesOf` begin with those of the first field's line. -/
theorem encode_linesOf_cons (f : HeaderField) (r : List HeaderField) (rest : Bytes) :
    Text.Utf8.encode (linesOf (f :: r)) ++ rest
      = Text.Utf8.encode (f.name ++ ": " ++ f.value ++ "\r\n") ++ (Text.Utf8.encode (linesOf r) ++ rest) := by
  have hlines : linesOf (f :: r) = f.name ++ ": " ++ f.value ++ "\r\n" ++ linesOf r := by
    rw [linesOf, List.map_cons, String.join_cons, String.append_assoc]
    rfl
  rw [hlines, Text.Utf8.encode_append _ (linesOf r), List.append_assoc]

namespace HeaderField

/-- Whether the name and the value of `f` keep to one line. -/
structure KeepsToLine (f : HeaderField) : Prop where
  name : StaysOnLine f.name
  value : StaysOnLine f.value

/-- The line of `f`, without its end. -/
def text (f : HeaderField) : String := f.name ++ ": " ++ f.value

/-- The colon and the space of `text` bring no line end in. -/
theorem staysOnLine_text_iff {f : HeaderField} : StaysOnLine f.text ↔ f.KeepsToLine := by
  have hcolon : StaysOnLine ": " := by decide
  rw [text, staysOnLine_append_iff, staysOnLine_append_iff]
  exact ⟨fun h => ⟨h.1.1, h.2⟩, fun h => ⟨⟨h.name, hcolon⟩, h.value⟩⟩

/-- And they make sure that a field's line is never taken for the blank one. -/
theorem encode_text_ne_nil (f : HeaderField) : Text.Utf8.encode f.text ≠ [] := by
  have hcolon : Text.Utf8.encode ": " ≠ [] := by decide
  rw [text, Text.Utf8.encode_append, Text.Utf8.encode_append]
  simp [hcolon]

end HeaderField

/-- If all fields `KeepsToLine`, `cutHead` of `linesOf` gives one line for each, and ends at their blank line whatever
follows (`rest`). -/
theorem cutHead_linesOf {fields : List HeaderField} (h : ∀ f ∈ fields, f.KeepsToLine) (rest : Bytes) :
    cutHead (Text.Utf8.encode (linesOf fields) ++ rest)
      = some (fields.map fun f => Text.Utf8.encode f.text, rest) := by
  induction fields with
  | nil => exact cutHead_blank rest
  | cons f r ih =>
    obtain ⟨hf, hr⟩ := List.forall_mem_cons.1 h
    have hline := f.staysOnLine_text_iff.2 hf
    rw [encode_linesOf_cons]
    exact (cutHead_text hline f.encode_text_ne_nil _).trans (by rw [ih hr]; rfl)

/-- `cutHead` of a status line and fields gives these very lines if and only if `line` and all fields stay on theirs. -/
theorem cutHead_head_iff {line : String} (hne : Text.Utf8.encode line ≠ []) {fields : List HeaderField} (rest : Bytes) :
    cutHead (Text.Utf8.encode (line ++ "\r\n") ++ (Text.Utf8.encode (linesOf fields) ++ rest))
        = some (Text.Utf8.encode line :: fields.map (fun f => Text.Utf8.encode f.text), rest) ↔
      StaysOnLine line ∧ ∀ f ∈ fields, f.KeepsToLine := by
  -- A line that was cut off is `Endless`, so a text that came out as one keeps to it.
  constructor
  · intro h
    obtain ⟨hline, hfields⟩ := List.forall_mem_cons.1 (endless_of_cutHead h)
    refine ⟨endless_encode_iff.1 hline, fun f hf => HeaderField.staysOnLine_text_iff.1 ?_⟩
    exact endless_encode_iff.1 (hfields _ (List.mem_map_of_mem hf))
  · rintro ⟨hline, hfields⟩
    rw [cutHead_text hline hne, cutHead_linesOf hfields]
    rfl

/-! ### Folding -/

/-- Only letters have a lower case of their own. -/
theorem toLower_eq_iff {c d : Char} (hd : d.toNat < 65) : c.toLower = d ↔ c = d := by
  unfold Char.toLower
  split
  · next hupper =>
    obtain ⟨hA, hZ⟩ : 65 ≤ c.toNat ∧ c.toNat ≤ 90 := hupper
    -- The lower case of a letter is 32 further on, above all that `d` may be.
    have hlower : (c.val + ('a'.val - 'A'.val)).toNat = c.toNat + 32 := by
      rw [UInt32.toNat_add, show ('a'.val - 'A'.val).toNat = 32 from rfl]
      exact Nat.mod_eq_of_lt (by show c.toNat + 32 < _; omega)
    constructor
    · rintro rfl
      have hsmall : (c.val + ('a'.val - 'A'.val)).toNat < 65 := hd
      omega
    · rintro rfl
      omega
  · exact Iff.rfl

/-- Names that `sameName` takes for one have the same line ends. -/
theorem staysOnLine_congr {m n : String} (h : sameName m n = true) : StaysOnLine m ↔ StaysOnLine n := by
  have hlower : m.toList.map Char.toLower = n.toList.map Char.toLower := by simpa [sameName] using h
  have hmem {d : Char} (hd : d.toNat < 65) : d ∈ m.toList ↔ d ∈ n.toList := by
    have hcase (l : List Char) : d ∈ l.map Char.toLower ↔ d ∈ l := by simp [toLower_eq_iff hd]
    rw [← hcase, hlower, hcase]
  rw [StaysOnLine, StaysOnLine, hmem (by decide), hmem (by decide)]

namespace Headers

/-- The commas of `joinValues` bring no line end in, by induction on the values. -/
theorem staysOnLine_joinValues_iff {vs : List String} :
    StaysOnLine (joinValues vs) ↔ ∀ v ∈ vs, StaysOnLine v := by
  induction vs with
  | nil => simp [joinValues, StaysOnLine]
  | cons v r ih =>
    cases r with
    | nil => simp [joinValues]
    | cons w r =>
      have hcomma : StaysOnLine "," := by decide
      rw [joinValues, staysOnLine_append_iff, staysOnLine_append_iff, ih, List.forall_mem_cons (a := v)]
      exact ⟨fun h => ⟨h.1.1, h.2⟩, fun h => ⟨⟨h.1, hcomma⟩, h.2⟩⟩

/-- Folding the fields of a name into one brings no line end in, and leaves none out. -/
theorem keepsToLine_folded_iff (h : Headers) :
    (∀ f ∈ h.folded.fields, f.KeepsToLine) ↔ ∀ f ∈ h.fields, f.KeepsToLine := by
  constructor
  · -- The value of `f` is among those that its name's folded field joins, in the name's first spelling.
    intro hfolded f hf
    have hcontains : h.contains f.name = true := List.any_eq_true.2 ⟨f, hf, sameName_refl _⟩
    obtain ⟨m, hm, hsame, -⟩ := exists_filter_names hcontains
    have hline := hfolded _ (List.mem_map_of_mem hm)
    have hvalue : f.value ∈ h.getAll m :=
      List.mem_map_of_mem (List.mem_filter.2 ⟨hf, by rw [sameName_comm]; exact hsame⟩)
    refine ⟨(staysOnLine_congr hsame).1 hline.name, ?_⟩
    have hjoined := hline.value
    rw [getD_joined?, staysOnLine_joinValues_iff] at hjoined
    exact hjoined f.value hvalue
  · -- A folded field has its name from `names` and its values from the fields of that name.
    intro hfields f hf
    obtain ⟨n, hn, rfl⟩ := List.mem_map.1 hf
    obtain ⟨g, hg, rfl⟩ := exists_field_of_mem_names hn
    refine ⟨(hfields g hg).name, ?_⟩
    rw [getD_joined?, staysOnLine_joinValues_iff]
    intro v hv
    obtain ⟨f, hf, rfl⟩ := List.mem_map.1 hv
    exact (hfields f (List.mem_filter.1 hf).1).value

end Headers

end ServletContainer
