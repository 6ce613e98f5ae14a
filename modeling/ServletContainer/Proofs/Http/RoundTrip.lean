import ServletContainer.Proofs.Http.HeadLines
import ServletContainer.Proofs.Http.HeadReading
import ServletContainer.Proofs.Text.Pieces

namespace ServletContainer

/-!
# Header fields there and back

A block that is written and read again gives one field for each name, with the values that its fields had together.

* `Headers.Edit`, `Headers.build` — lists of fields as they come about.
* `HeaderField.IsPlain` — a token for a name, and a value that keeps to its line and has no blanks at its ends.
* `HeaderField.IsPlain.folded` — folding keeps fields plain.
* `readLine_text`, `fieldOf?_text` — the line of a plain field.
* `readFields_lines` — the lines of plain fields, by induction on the fields.
* `readHead_request`, `readHead_build` — a head with the block of a list of plain fields, and of any that edits
  build.
-/

/-! ### Plain fields -/

/-- No character of a token is a line end. -/
theorem staysOnLine_of_isToken {s : String} (h : isToken s = true) : StaysOnLine s := by
  have hall : ∀ c ∈ s.toList, isTokenChar c = true := by
    rw [isToken, Bool.and_eq_true] at h
    exact List.all_eq_true.1 h.2
  exact ⟨fun hr => absurd (hall _ hr) (by decide), fun hf => absurd (hall _ hf) (by decide)⟩

/-- Whether `f` has a token for a name, and a value that keeps to its line and has no blanks at its ends. -/
structure HeaderField.IsPlain (f : HeaderField) : Prop where
  name : isToken f.name = true
  value : StaysOnLine f.value
  trimmed : Text.trim f.value = f.value

namespace Headers

/-- `trim` leaves a text alone if neither its first nor its last character is a blank. -/
theorem trim_eq_self_iff {v : String} : Text.trim v = v ↔
    (∀ c ∈ v.toList.head?, Text.isBlank c = false) ∧ ∀ c ∈ v.toList.getLast?, Text.isBlank c = false := by
  rw [← Text.trimBlanks_eq_self_iff, Text.trim, ← String.toList_inj, String.toList_ofList]

/-- The commas of `joinValues` leave no blank at either end if no value has one (`h`). By induction on the values; an
empty first or last value has the comma next to it at the end. -/
theorem trim_joinValues {vs : List String} (h : ∀ v ∈ vs, Text.trim v = v) :
    Text.trim (joinValues vs) = joinValues vs := by
  induction vs with
  | nil => rfl
  | cons v r ih =>
    cases r with
    | nil => exact h v List.mem_cons_self
    | cons w r =>
      obtain ⟨hv, hr⟩ := List.forall_mem_cons.1 h
      have hrest := ih hr
      rw [trim_eq_self_iff] at hv hrest ⊢
      have hcomma : Text.isBlank ',' = false := by decide
      simp only [joinValues, String.toList_append, String.reduceToList, List.append_assoc, List.singleton_append]
      refine ⟨fun c hc => ?_, fun c hc => ?_⟩
      · -- The text starts as `v` does, or with the comma.
        rw [List.head?_append] at hc
        cases hfirst : v.toList.head? with
        | some d => exact hv.1 c (by simpa [hfirst] using hc)
        | none =>
          obtain rfl : ',' = c := by simpa [hfirst] using hc
          exact hcomma
      · -- It ends as `joinValues (w :: r)` does, or with the comma.
        rw [List.getLast?_append, List.getLast?_cons] at hc
        cases hlast : (joinValues (w :: r)).toList.getLast? with
        | some d => exact hrest.2 c (by simpa [hlast] using hc)
        | none =>
          obtain rfl : ',' = c := by simpa [hlast] using hc
          exact hcomma

/-- Folding keeps fields plain: a joined value stays on its line by `staysOnLine_joinValues_iff` and trimmed by
`trim_joinValues`. -/
theorem isPlain_folded {h : Headers} (hplain : ∀ f ∈ h.fields, f.IsPlain) : ∀ f ∈ h.folded.fields, f.IsPlain := by
  intro f hf
  obtain ⟨n, hn, rfl⟩ := List.mem_map.1 hf
  obtain ⟨g, hg, rfl⟩ := exists_field_of_mem_names hn
  have hvalues : ∀ v ∈ h.getAll g.name, StaysOnLine v ∧ Text.trim v = v := by
    intro v hv
    obtain ⟨f, hf, rfl⟩ := List.mem_map.1 hv
    have hf := hplain f (List.mem_filter.1 hf).1
    exact ⟨hf.value, hf.trimmed⟩
  exact
    { name := (hplain g hg).name
      value := h.getD_joined? g.name ▸ staysOnLine_joinValues_iff.2 fun v hv => (hvalues v hv).1
      trimmed := h.getD_joined? g.name ▸ trim_joinValues fun v hv => (hvalues v hv).2 }

/-! ### Lists as they come about -/

/-- A change to `Headers`. -/
inductive Edit where
  | append (name value : String)
  | set (name value : String)
  | remove (name : String)

/-- The field that an `Edit` adds. -/
def Edit.field? : Edit → Option HeaderField
  | .append name value | .set name value => some ⟨name, value⟩
  | .remove _ => none

/-- Makes an `Edit`. -/
def edit (h : Headers) : Edit → Headers
  | .append name value => h.append name value
  | .set name value => h.set name value
  | .remove name => h.remove name

/-- The `Headers` that `edits` make, one after the other. -/
def build (edits : List Edit) : Headers := edits.foldl edit empty

/-- No edit adds another field than its own. -/
theorem mem_fields_edit {h : Headers} {e : Edit} {f : HeaderField} (hf : f ∈ (h.edit e).fields) :
    f ∈ h.fields ∨ e.field? = some f := by
  cases e with
  | append name value =>
    rcases List.mem_append.1 hf with hf | hf
    · exact .inl hf
    · exact .inr (congrArg some (List.mem_singleton.1 hf).symm)
  | set name value =>
    rcases List.mem_append.1 hf with hf | hf
    · exact .inl (List.mem_filter.1 hf).1
    · exact .inr (congrArg some (List.mem_singleton.1 hf).symm)
  | remove name => exact .inl (List.mem_filter.1 hf).1

/-- Every field of a list that edits made was added by one of them. -/
theorem exists_edit_of_mem_build {edits : List Edit} {f : HeaderField} (hf : f ∈ (build edits).fields) :
    ∃ e ∈ edits, e.field? = some f := by
  induction edits using List.reverseRecOn with
  | nil => cases hf
  | append_singleton edits e ih =>
    rw [build, List.foldl_concat] at hf
    rcases mem_fields_edit hf with hf | he
    · obtain ⟨d, hd, hfield⟩ := ih hf
      exact ⟨d, List.mem_append_left _ hd, hfield⟩
    · exact ⟨e, by simp, he⟩

end Headers

/-! ### One line -/

section Lines

variable {s : String} (hs : StaysOnLine s)

include hs

/-- `textOf` drops the carriage return that a written line ends with, and no more, as the text has none. -/
theorem textOf_encode : textOf (Text.Utf8.encode s ++ [13]) = Text.Utf8.encode s := by
  have hreturn : ∀ b ∈ Text.Utf8.encode s, b ≠ 13 := by
    rintro b hb rfl
    exact hs.1 ((Text.Utf8.mem_encode_iff (by decide)).1 hb)
  have hself : (Text.Utf8.encode s).filter (fun b => decide (b ≠ 13)) = Text.Utf8.encode s :=
    List.filter_eq_self.2 fun b hb => by simp [hreturn b hb]
  rw [textOf, List.filter_append, hself]
  simp

theorem feed_not_mem_encode : (10 : UInt8) ∉ Text.Utf8.encode s ++ [13] := by
  simp only [List.mem_append, not_or]
  exact ⟨fun hb => hs.2 ((Text.Utf8.mem_encode_iff (by decide)).1 hb), by decide⟩

/-- `readLine` reads a text as a line if it keeps to its line and fits `limit` (`hlength`). -/
theorem readLine_text {limit : Nat} (hlength : (Text.Utf8.encode s).length ≤ limit) (rest : Bytes) :
    readLine limit (Text.Utf8.encode (s ++ "\r\n") ++ rest) = .line (Text.Utf8.encode s) rest := by
  have hroom : (textOf (Text.Utf8.encode s ++ [13])).length ≤ limit := by rwa [textOf_encode hs]
  have hread := readLine_append (feed_not_mem_encode hs) hroom rest
  rwa [textOf_encode hs, ← encode_line_append] at hread

/-- In `linesFrom`, by which limits are stated, the same text is the first line. -/
theorem exists_linesFrom_text (start : Nat) (rest : Bytes) : ∃ l next,
    linesFrom start (Text.Utf8.encode (s ++ "\r\n") ++ rest) = l :: linesFrom next rest ∧
      l.text = Text.Utf8.encode s := by
  rw [encode_line_append, linesFrom_append (feed_not_mem_encode hs)]
  exact ⟨_, _, rfl, textOf_encode hs⟩

end Lines

/-- `fieldOf?` of a plain field's line is the field: the first colon is the one behind the name, and the space behind it
is trimmed off. -/
theorem fieldOf?_text {f : HeaderField} (hf : f.IsPlain) :
    fieldOf? (Text.Utf8.encode (f.name ++ ": " ++ f.value)) = some f := by
  have hall : ∀ c ∈ f.name.toList, isTokenChar c = true := by
    have hname := hf.name
    rw [isToken, Bool.and_eq_true] at hname
    exact List.all_eq_true.1 hname.2
  have hname : Text.trim (String.ofList f.name.toList) = f.name := by
    rw [String.ofList_toList, Text.trim, Text.trimBlanks_of_none fun c hc => (isTokenChar_spec (hall c hc)).1,
      String.ofList_toList]
  have hvalue : Text.trim (String.ofList (' ' :: f.value.toList)) = f.value := by
    have hblank : Text.isBlank ' ' = true := by decide
    rw [Text.trim, String.toList_ofList, Text.trimBlanks, List.dropWhile_cons_of_pos hblank]
    exact hf.trimmed
  -- The line is cut at the colon behind `f.name`, in which there is none.
  refine fieldOf?_eq_some_iff.2 ⟨f.name.toList, ' ' :: f.value.toList, ?_, ?_, ?_, ?_⟩
  · rw [Text.Utf8.decodeLossy_encode]
    simp
  · exact fun hcolon => absurd (hall _ hcolon) (by decide)
  · rw [hname]
    exact hf.name
  · rw [hname, hvalue]

/-! ### The block -/

/-- `readFields` reads the lines of plain fields as these fields, and touches nothing behind the blank line (`rest`). By
induction on the fields, where `got` gathers those that are read. -/
theorem readFields_lines {limit : Nat} {fields : List HeaderField} (hplain : ∀ f ∈ fields, f.IsPlain) {start : Nat}
    (hlimit : ∀ l ∈ linesFrom start (Text.Utf8.encode (linesOf fields)), l.isLong limit = false) (ending : Ending)
    (got : Headers) (rest : Bytes) :
    readFields limit ending got (Text.Utf8.encode (linesOf fields) ++ rest)
      = (.ok ⟨got.fields ++ fields⟩, rest) := by
  induction fields generalizing start got with
  | nil =>
    -- Without a field the blank line comes first.
    have hblank : readLine limit (Text.Utf8.encode ("" ++ "\r\n") ++ rest) = .line [] rest :=
      readLine_text (by decide) (Nat.zero_le _) rest
    rw [List.append_nil]
    exact readFields_of_line_nil hblank
  | cons f r ih =>
    obtain ⟨hf, hr⟩ := List.forall_mem_cons.1 hplain
    have hline : StaysOnLine (f.name ++ ": " ++ f.value) :=
      ((staysOnLine_of_isToken hf.name).append (by decide)).append hf.value
    have hcons := encode_linesOf_cons f r []
    rw [List.append_nil, List.append_nil] at hcons
    obtain ⟨l, next, hlines, htext⟩ := exists_linesFrom_text hline start (Text.Utf8.encode (linesOf r))
    rw [hcons, hlines, List.forall_mem_cons, Line.isLong, htext, decide_eq_false_iff_not, Nat.not_lt] at hlimit
    -- The line is not blank, since `fieldOf?` of a blank line is none.
    have hne : Text.Utf8.encode (f.name ++ ": " ++ f.value) ≠ [] := by
      intro hnil
      have hnone := fieldOf?_text hf
      rw [hnil, fieldOf?_nil] at hnone
      cases hnone
    rw [encode_linesOf_cons, readFields_of_line (readLine_text hline hlimit.1 _) hne, fieldOf?_text hf]
    refine (ih hr hlimit.2 (got.append f.name f.value)).trans ?_
    simp [Headers.append]

/-! ### The head -/

/-- A request for the root with the block of `h`. -/
def Headers.request (h : Headers) : String := "GET / HTTP/1.1" ++ "\r\n" ++ (h.text ++ "\r\n")

/-- The request line of `Headers.request` asks for the root. -/
theorem parseRequestLine?_root :
    parseRequestLine? (Text.Utf8.encode "GET / HTTP/1.1") = some (.get, "/", "HTTP/1.1") := by
  rw [parseRequestLine?_eq]
  exact requestLine?_eq_some_iff.2 ⟨"GET / HTTP/1.1", "GET", rfl, by decide, by decide, by decide, by decide⟩

/-- `readHead` reads a request with plain fields as these fields folded, if no line of it is too long (`hlimit`), and
leaves `rest`. -/
theorem readHead_request {h : Headers} (hplain : ∀ f ∈ h.fields, f.IsPlain) {limit : Nat}
    (hlimit : ∀ l ∈ linesFrom 0 (Text.Utf8.encode h.request), l.isLong limit = false)
    (ending : Ending) (rest : Bytes) :
    readHead limit ⟨Text.Utf8.encode h.request ++ rest, ending⟩
      = (.ok ⟨some .get, "/", "HTTP/1.1", h.folded⟩, ⟨rest, ending⟩) := by
  have hfirst : StaysOnLine "GET / HTTP/1.1" := by decide
  have hrequest : Text.Utf8.encode h.request = Text.Utf8.encode ("GET / HTTP/1.1" ++ "\r\n")
      ++ Text.Utf8.encode (linesOf h.folded.fields) := by
    rw [linesOf, ← h.text_eq_join_folded, Headers.request, Text.Utf8.encode_append _ (h.text ++ "\r\n")]
  obtain ⟨l, next, hlines, htext⟩ := exists_linesFrom_text hfirst 0 (Text.Utf8.encode (linesOf h.folded.fields))
  rw [hrequest, hlines, List.forall_mem_cons, Line.isLong, htext, decide_eq_false_iff_not, Nat.not_lt] at hlimit
  have hfields := readFields_lines (Headers.isPlain_folded hplain) hlimit.2 ending .empty rest
  have hline := readLine_text hfirst hlimit.1 (Text.Utf8.encode (linesOf h.folded.fields) ++ rest)
  -- `readLine` reads the request line first, `readFields_lines` the fields with the blank line.
  have hhead : readHeadBytes limit ending (Text.Utf8.encode h.request ++ rest)
      = (.ok ⟨some .get, "/", "HTTP/1.1", h.folded⟩, rest) := by
    rw [hrequest, List.append_assoc, readHeadBytes_of_line hline, readAfterLine, parseRequestLine?_root]
    dsimp only
    rw [hfields]
    rfl
  rw [readHead, hhead]

/-- **Round trip.** `readHead` reads a request with the block of a list that `edits` built, if each adds at most a plain
field (`hplain`) and no line is too long (`hlimit`):

* just the request is consumed, whatever follows it (`rest`);
* the names read are those of the list, in order and as first spelled, and no name comes twice;
* each name has the joined value that it has in the list, whatever the letter case one asks in. -/
theorem readHead_build {edits : List Headers.Edit} (hplain : ∀ e ∈ edits, ∀ f ∈ e.field?, f.IsPlain) {limit : Nat}
    (hlimit : ∀ l ∈ linesFrom 0 (Text.Utf8.encode (Headers.build edits).request), l.isLong limit = false)
    (ending : Ending) (rest : Bytes) :
    let h := Headers.build edits
    ∃ fields : Headers,
      readHead limit ⟨Text.Utf8.encode h.request ++ rest, ending⟩
        = (.ok ⟨some .get, "/", "HTTP/1.1", fields⟩, ⟨rest, ending⟩) ∧
      fields.names = h.names ∧ fields.fields.map HeaderField.name = h.names ∧
      h.names.Pairwise (fun m n => sameName m n = false) ∧
      ∀ n, fields.joined? n = h.joined? n := by
  intro h
  have hfields : ∀ f ∈ h.fields, f.IsPlain := by
    intro f hf
    obtain ⟨e, he, hfield⟩ := Headers.exists_edit_of_mem_build hf
    exact hplain e he f hfield
  exact ⟨h.folded, readHead_request hfields hlimit ending rest, h.names_folded, h.map_name_folded, h.pairwise_names,
    h.joined?_folded⟩

/-- Names in two spellings, an empty value, values with colons and commas, a field that is replaced and one that
is removed. -/
theorem readHead_build_spellings :
    let edits : List Headers.Edit := [.append "Accept" "a:b", .append "X-Empty" "", .set "Host" "one",
      .append "accept" "c,d", .append "Gone" "1", .set "HOST" "two", .remove "gone", .append "x-empty" ""]
    (∀ e ∈ edits, ∀ f ∈ e.field?, f.IsPlain) ∧
      ∃ fields : Headers,
        (readHead 15 ⟨Text.Utf8.encode (Headers.build edits).request ++ [88], .silent⟩).1
          = .ok ⟨some .get, "/", "HTTP/1.1", fields⟩ ∧
        fields.names = ["Accept", "X-Empty", "HOST"] ∧ fields.joined? "ACCEPT" = some "a:b,c,d" := by
  intro edits
  have hplain : ∀ e ∈ edits, ∀ f ∈ e.field?, f.IsPlain := by
    have hall : ∀ e ∈ edits, ∀ f ∈ e.field?,
        isToken f.name = true ∧ StaysOnLine f.value ∧ Text.trim f.value = f.value := by decide +kernel
    exact fun e he f hf => ⟨(hall e he f hf).1, (hall e he f hf).2.1, (hall e he f hf).2.2⟩
  have hlimit : ∀ l ∈ linesFrom 0 (Text.Utf8.encode (Headers.build edits).request), l.isLong 15 = false := by
    decide +kernel
  -- Reading back is `readHead_build`; only the names and the joined value are computed.
  obtain ⟨fields, hread, hnames, -, -, hjoined⟩ := readHead_build hplain hlimit .silent [88]
  refine ⟨hplain, fields, congrArg Prod.fst hread, hnames.trans (by decide +kernel), ?_⟩
  exact (hjoined "ACCEPT").trans (by decide +kernel)

end ServletContainer
