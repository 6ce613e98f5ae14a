import ServletContainer.Proofs.Response.Wire
import ServletContainer.Proofs.Text.Pieces

namespace ServletContainer

/-!
# Cookies on the head of a response

Header fields of one name are sent as one line, whose values are joined by commas. A client takes the pair in front
of the first semicolon of a cookie line, and so the first of several cookies on it.

* `Headers.appendAll`, `Headers.text_appendAll` — fields of one name, and the line that they make.
* `Response.headText`, `Response.head_writeHeaders` — the head as it is sent, as a text.
* `cookieLines`, `handedPair?` — the cookie lines of a head, and the pair that a client takes from the last one.
* `handedPair?_append` — the pair of a cookie line among lines that are none.
-/

/-! ### Fields of one name -/

namespace Headers

variable {h : Headers} {n : String}

/-- Adds fields of the name `n` with the values `vs` after the others. -/
def appendAll (h : Headers) (n : String) (vs : List String) : Headers :=
  ⟨h.fields ++ vs.map fun v => ⟨n, v⟩⟩

@[simp] theorem appendAll_nil (h : Headers) (n : String) : h.appendAll n [] = h := by
  simp [appendAll]

theorem append_appendAll (h : Headers) (n v : String) (vs : List String) :
    (h.appendAll n vs).append n v = h.appendAll n (vs ++ [v]) := by
  simp [appendAll, append]

/-- `contains` asks the first field and then the others. -/
theorem contains_cons (f : HeaderField) (r : List HeaderField) (n : String) :
    (⟨f :: r⟩ : Headers).contains n = (sameName f.name n || (⟨r⟩ : Headers).contains n) := List.any_cons

/-- A field with a new name `n` puts this name at the end of `names`, by induction on the fields. -/
theorem names_append_of_not_contains (hn : h.contains n = false) (v : String) :
    (h.append n v).names = h.names ++ [n] := by
  obtain ⟨l⟩ := h
  show firstNames (l ++ [⟨n, v⟩]) = firstNames l ++ [n]
  induction l with
  | nil => rfl
  | cons f r ih =>
    obtain ⟨hf, hr⟩ : sameName f.name n = false ∧ (⟨r⟩ : Headers).contains n = false := by
      simpa [contains_cons] using hn
    rw [List.cons_append, firstNames, ih hr, List.filter_append, firstNames, List.cons_append]
    rw [sameName_comm] at hf
    simp [hf]

/-- One with a name that is there changes nothing of `names`. -/
theorem names_append_of_contains (hn : h.contains n = true) (v : String) : (h.append n v).names = h.names := by
  obtain ⟨l⟩ := h
  show firstNames (l ++ [⟨n, v⟩]) = firstNames l
  induction l with
  | nil => simp [contains] at hn
  | cons f r ih =>
    rw [List.cons_append, firstNames, firstNames]
    -- `n` is the name of a field of `r`, or of the first.
    by_cases hr : (⟨r⟩ : Headers).contains n = true
    · rw [ih hr]
    · have hf : sameName n f.name = true := by
        rw [sameName_comm]
        simpa [contains_cons, hr] using hn
      have hnames : firstNames (r ++ [⟨n, v⟩]) = firstNames r ++ [n] :=
        names_append_of_not_contains (h := ⟨r⟩) (by simpa using hr) v
      rw [hnames, List.filter_append]
      simp [hf]

/-- `appendAll` adds its values behind those of the same name, however it is spelled. -/
theorem getAll_appendAll (h : Headers) (n m : String) (vs : List String) :
    (h.appendAll n vs).getAll m = h.getAll m ++ if sameName n m then vs else [] := by
  unfold getAll appendAll
  rw [List.filter_append, List.map_append, List.filter_map]
  cases hnm : sameName n m with
  | true => simp [Function.comp_def, hnm]
  | false => simp [Function.comp_def, hnm]

/-- It adds the name if it adds any value. -/
theorem contains_appendAll (h : Headers) (n m : String) (vs : List String) :
    (h.appendAll n vs).contains m = (h.contains m || (sameName n m && !vs.isEmpty)) := by
  rw [contains, appendAll, List.any_append, List.any_map]
  cases hnm : sameName n m with
  | true => cases vs <;> simp [Function.comp_def, hnm, contains]
  | false => simp [Function.comp_def, hnm, contains]

/-- So several fields with a new name put it at the end once. -/
theorem names_appendAll (hn : h.contains n = false) (v : String) (vs : List String) :
    (h.appendAll n (v :: vs)).names = h.names ++ [n] := by
  induction vs using List.reverseRecOn with
  | nil => exact names_append_of_not_contains hn v
  | append_singleton vs w ih =>
    rw [← List.cons_append, ← append_appendAll, names_append_of_contains ?_ w, ih]
    simp [contains_appendAll]

/-- They make one line behind the others, with their values joined. -/
theorem text_appendAll (hn : h.contains n = false) (v : String) (vs : List String) :
    (h.appendAll n (v :: vs)).text = h.text ++ line n (joinValues (v :: vs)) := by
  have hnone : h.getAll n = [] := by
    by_contra hne
    have hcontains := (contains_eq_true_iff h n).2 hne
    rw [hn] at hcontains
    cases hcontains
  -- `hnone`: the new name has just `v :: vs` joined, the others keep theirs.
  have hown : (h.appendAll n (v :: vs)).joined? n = some (joinValues (v :: vs)) := by
    rw [joined?, getAll_appendAll, hnone]
    simp
  have hothers : ∀ m ∈ h.names, (h.appendAll n (v :: vs)).joined? m = h.joined? m := by
    intro m hm
    rw [joined?, getAll_appendAll, not_sameName_of_mem_names hn hm]
    simp [joined?]
  rw [text, names_appendAll hn, List.map_append, String.join_append, text]
  congr 1
  · exact congrArg String.join (List.map_congr_left fun m hm => by rw [hothers m hm])
  · simp [hown, String.join]

theorem text_append_of_not_contains (hn : h.contains n = false) (v : String) :
    (h.append n v).text = h.text ++ line n v := text_appendAll hn v []

/-- `contains` does not tell spellings apart. -/
theorem contains_of_sameName {m : String} (h : Headers) (hnm : sameName n m = true) :
    h.contains n = h.contains m :=
  congrArg (h.fields.any ·) (funext fun f => sameName_congr hnm f.name)

end Headers

/-! ### The head as a text -/

namespace Response

/-- The `Connection: close` that closes the connection, unless `h` says otherwise. -/
def closingLine (h : Headers) : String := if h.contains "connection" then "" else Headers.line "Connection" "close"

/-- `sentHeaders` adds the `closingLine`, which is empty if the fields have a `Connection`. -/
theorem text_sentHeaders (h : Headers) : (sentHeaders h).text = h.text ++ closingLine h := by
  unfold sentHeaders closingLine
  by_cases hconnection : h.contains "connection" = true
  · simp [hconnection]
  · have hnone : h.contains "Connection" = false := by
      rw [h.contains_of_sameName sameName_connection]
      simpa using hconnection
    rw [if_neg hconnection, if_neg hconnection, Headers.text_append_of_not_contains hnone]

/-- The head as it is sent, where `begun` of it is written already. -/
def headText (r : Response) (begun : String) : String :=
  (if begun = "" then r.statusLine else begun) ++ ((sentHeaders r.headers).text ++ "\r\n")

/-- If `begun` of the head is written already (`hbegun`), `writeHeaders` completes it to `headText`. -/
theorem head_writeHeaders {r : Response} {begun : String} (hnew : r.state = .new)
    (hbegun : r.head = Text.Utf8.encode begun) : r.writeHeaders.head = Text.Utf8.encode (r.headText begun) := by
  have hline : r.writeStatusLine.head = Text.Utf8.encode (if begun = "" then r.statusLine else begun) := by
    unfold writeStatusLine
    by_cases hempty : begun = ""
    · subst hempty
      simp [hnew, hbegun, Text.Utf8.encode]
    · have hne : r.head ≠ [] := by
        rw [hbegun]
        exact encode_ne_nil (by simpa using hempty)
      rw [if_neg fun h => hne h.2, if_neg hempty, hbegun]
  rw [writeHeaders_of_new hnew]
  show r.writeStatusLine.head ++ Text.Utf8.encode ((sentHeaders r.headers).text ++ "\r\n") = _
  rw [hline, headText, Text.Utf8.encode_append _ ((sentHeaders r.headers).text ++ "\r\n")]

end Response

/-! ### The cookie line -/

/-- What the lines of `text` hold that start with `Set-Cookie:`. -/
def cookieLines (text : String) : List String := (Text.pieces '\n' text).filterMap (Text.after? "Set-Cookie:")

/-- The pair that `head` hands to the client: that of the last of its `cookieLines`, up to the first semicolon. -/
def handedPair? (head : String) : Option String :=
  (cookieLines head).getLast?.bind fun cookie => (Text.pieces ';' cookie).head?.map Text.trim

/-- Whether `text` stops at the end of a line. -/
def EndsLine (text : String) : Prop := text = "" ∨ text.toList.getLast? = some '\n'

/-- Texts that end their lines do so one behind the other. -/
theorem EndsLine.append {s t : String} (hs : EndsLine s) (ht : EndsLine t) : EndsLine (s ++ t) := by
  rcases ht with rfl | ht
  · simpa using hs
  · exact .inr (by rw [String.toList_append, List.getLast?_append, ht, Option.some_or])

/-- A field's `line` ends. -/
theorem Headers.endsLine_line (n v : String) : EndsLine (line n v) := by
  have htext : (line n v).toList = (n ++ ": " ++ v ++ "\r").toList ++ ['\n'] := by simp [line]
  exact .inr (by rw [htext, List.getLast?_concat])

/-- The text of all fields ends its last line. -/
theorem Headers.endsLine_text (h : Headers) : EndsLine h.text := by
  rw [text]
  induction h.names with
  | nil => exact .inl rfl
  | cons n names ih =>
    rw [List.map_cons, String.join_cons]
    exact (endsLine_line n _).append ih

/-- Whether no line of `text` but the first, which other text may precede, starts with `Set-Cookie:`. -/
def HidesNothing (text : String) : Prop :=
  ∀ l ∈ (Text.pieces '\n' text).tail, Text.after? "Set-Cookie:" l = none

/-- `after?` fails where `dropHead?` of the characters does. -/
theorem after?_ofList_eq_none_iff {p : String} {l : List Char} :
    Text.after? p (String.ofList l) = none ↔ Text.dropHead? p.toList l = none := by
  rw [Text.after?, String.toList_ofList, Option.map_eq_none_iff]

/-- So `HidesNothing` may be asked of the characters between line feeds. -/
theorem hidesNothing_iff {text : String} : HidesNothing text ↔
    ∀ l ∈ (Text.fields '\n' text.toList).tail, Text.dropHead? "Set-Cookie:".toList l = none := by
  rw [HidesNothing, Text.pieces, ← List.map_tail, List.forall_mem_map]
  exact forall₂_congr fun l _ => after?_ofList_eq_none_iff

/-- What stands in front without a line feed belongs to the first line, which does not count. -/
theorem HidesNothing.of_append {s t : String} (hs : '\n' ∉ s.toList) (ht : HidesNothing t) :
    HidesNothing (s ++ t) := by
  rw [hidesNothing_iff] at ht ⊢
  obtain ⟨f, fs, hf, hjoin⟩ := Text.fields_append_of_not_mem hs t.toList
  rw [String.toList_append, hjoin]
  rwa [hf] at ht

/-- Two texts that hide nothing hide nothing together, if the second does not start with a character of the name
(`hfirst`): no line that ends the first can become a cookie line by it. -/
theorem HidesNothing.append {s t : String} (hs : HidesNothing s) (ht : HidesNothing t)
    (hfirst : ∀ c ∈ t.toList.head?, c ∉ "Set-Cookie:".toList) : HidesNothing (s ++ t) := by
  rw [hidesNothing_iff] at hs ht ⊢
  obtain ⟨init, last, f, fs, hinit, hf, hjoin⟩ := Text.exists_fields_append '\n' s.toList t.toList
  have hstart : ∀ c ∈ f.head?, c ∉ "Set-Cookie:".toList := fun c hc => hfirst c (Text.mem_head?_of_fields hf hc)
  rw [String.toList_append, hjoin]
  rw [hinit] at hs
  rw [hf] at ht
  cases init with
  | nil => exact ht
  | cons g gs =>
    intro l hl
    -- A line of `s`, the one that runs from it into the second text, or one of the second.
    rcases List.mem_append.1 hl with hl | hl
    · exact hs l (List.mem_append_left _ hl)
    · rcases List.mem_cons.1 hl with rfl | hl
      · exact Text.dropHead?_append_eq_none (hs last (by simp)) hstart
      · exact ht l hl

/-- Behind a text that `EndsLine` the cookie lines are read by themselves. -/
theorem EndsLine.cookieLines_append {s : String} (hs : EndsLine s) (t : String) :
    cookieLines (s ++ t) = cookieLines s ++ cookieLines t := by
  rcases hs with rfl | hs
  · rw [String.empty_append]
    rfl
  · obtain ⟨begun, hbegun⟩ := List.getLast?_eq_some_iff.1 hs
    -- `s` ends a line, so its last piece is empty and nothing is joined to `r`.
    have hcut : ∀ r, Text.fields '\n' (s.toList ++ r) = Text.fields '\n' begun ++ Text.fields '\n' r := by
      intro r
      rw [hbegun, List.append_assoc, List.singleton_append, Text.fields_append_cons]
    have hself : cookieLines s = ((Text.fields '\n' begun).map String.ofList).filterMap (Text.after? "Set-Cookie:") := by
      have hown := hcut []
      rw [List.append_nil] at hown
      rw [cookieLines, Text.pieces, hown, List.map_append, List.filterMap_append]
      exact List.append_nil _
    rw [hself, cookieLines, Text.pieces, String.toList_append, hcut, List.map_append, List.filterMap_append]
    rfl

/-- The line of a `Set-Cookie` field whose value starts with `pair ++ ";"` is one cookie line that starts so, if the
rest of the value `HidesNothing`. -/
theorem cookieLines_line {pair rest : String} (hpair : '\n' ∉ pair.toList) (hrest : HidesNothing rest) :
    ∃ more, cookieLines (Headers.line "Set-Cookie" (pair ++ ";" ++ rest)) = [" " ++ pair ++ ";" ++ more] := by
  -- The value may run over more lines, but by `HidesNothing` these hand out nothing.
  have hend : HidesNothing "\r\n" := by
    rw [hidesNothing_iff]
    decide +kernel
  have hclosed : HidesNothing (rest ++ "\r\n") := hrest.append hend (by simp)
  have hfront : '\n' ∉ ("Set-Cookie:" ++ (" " ++ pair ++ ";")).toList := by simp [hpair]
  obtain ⟨f, fs, hf, hjoin⟩ := Text.fields_append_of_not_mem hfront (rest ++ "\r\n").toList
  have hothers : (fs.map String.ofList).filterMap (Text.after? "Set-Cookie:") = [] := by
    rw [hidesNothing_iff, hf] at hclosed
    rw [List.filterMap_map, List.filterMap_eq_nil_iff]
    exact fun l hl => after?_ofList_eq_none_iff.2 (hclosed l hl)
  have hline : Headers.line "Set-Cookie" (pair ++ ";" ++ rest)
      = "Set-Cookie:" ++ (" " ++ pair ++ ";") ++ (rest ++ "\r\n") := by
    rw [← String.toList_inj]
    simp [Headers.line]
  have hcookie : Text.after? "Set-Cookie:" (String.ofList (("Set-Cookie:" ++ (" " ++ pair ++ ";")).toList ++ f))
      = some (" " ++ pair ++ ";" ++ String.ofList f) := by
    have hdrop : Text.dropHead? "Set-Cookie:".toList
        (String.ofList (("Set-Cookie:" ++ (" " ++ pair ++ ";")).toList ++ f)).toList
          = some ((" " ++ pair ++ ";").toList ++ f) := by
      refine Text.dropHead?_eq_some_iff.2 (String.toList_ofList.trans ?_)
      rw [String.toList_append, List.append_assoc]
    rw [Text.after?, hdrop, Option.map_some, String.ofList_append, String.ofList_toList]
  refine ⟨String.ofList f, ?_⟩
  rw [hline, cookieLines, Text.pieces, String.toList_append, hjoin, List.map_cons, List.filterMap_cons, hcookie, hothers]

/-- Between lines without cookies, such a line hands the client `pair`. -/
theorem handedPair?_append {before pair rest after : String} (hbefore : EndsLine before)
    (hnothing : cookieLines (before ++ after) = [])
    (hpair : ∀ c ∈ pair.toList, c ≠ ';' ∧ Text.isBlank c = false) (hrest : HidesNothing rest) :
    handedPair? (before ++ Headers.line "Set-Cookie" (pair ++ ";" ++ rest) ++ after) = some pair := by
  have hfeed : '\n' ∉ pair.toList := fun hmem => absurd (hpair _ hmem).2 (by decide)
  obtain ⟨more, hcookie⟩ := cookieLines_line hfeed hrest
  rw [hbefore.cookieLines_append, List.append_eq_nil_iff] at hnothing
  -- The `Set-Cookie` line is the only one that `cookieLines` finds, and its first piece is the pair.
  have hown : cookieLines (before ++ Headers.line "Set-Cookie" (pair ++ ";" ++ rest) ++ after)
      = [" " ++ pair ++ ";" ++ more] := by
    have hends : EndsLine (Headers.line "Set-Cookie" (pair ++ ";" ++ rest)) := Headers.endsLine_line _ _
    rw [(hbefore.append hends).cookieLines_append, hbefore.cookieLines_append, hnothing.1, hnothing.2, hcookie,
      List.nil_append, List.append_nil]
  have hfirst : ';' ∉ ' ' :: pair.toList := by
    have hpairs : ';' ∉ pair.toList := fun hmem => (hpair _ hmem).1 rfl
    simp [hpairs]
  have hchars : (" " ++ pair ++ ";" ++ more).toList = ' ' :: pair.toList ++ ';' :: more.toList := by simp
  rw [handedPair?, hown, List.getLast?_singleton, Option.bind_some, Text.pieces, hchars, Text.fields_append_cons,
    Text.fields_of_not_mem hfirst, List.singleton_append, List.map_cons, List.head?_cons, Option.map_some, Text.trim,
    String.toList_ofList, Text.trimBlanks_cons_of_none (by decide) fun c hc => (hpair c hc).2, String.ofList_toList]

end ServletContainer
