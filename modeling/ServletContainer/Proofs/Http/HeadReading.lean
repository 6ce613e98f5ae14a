import ServletContainer.Proofs.Http.Lines
import ServletContainer.Proofs.Text.Pieces
import ServletContainer.Proofs.Text.Utf8

namespace ServletContainer

/-!
# Reading a head

What `readHead` gives can be told from the whole input at once: cut it into lines, and look at them in order.

* `requestLine?`, `fieldOf?` — what a line states as a request line and as a header field.
* `headOf` — the head of an input, and how much of the input it takes.
* `agrees_readFields` — reading fields line by line, by induction on the lines.
* `readHead_eq` — reading a head byte by byte.
* `isProper_of_readHead` — a head that has a method names a protocol.
-/

/-! ### Tokens -/

/-- The codes of letters and digits. -/
theorem toNat_of_isAlphanum {c : Char} (h : c.isAlphanum = true) :
    ((65 ≤ c.toNat ∧ c.toNat ≤ 90) ∨ (97 ≤ c.toNat ∧ c.toNat ≤ 122)) ∨ (48 ≤ c.toNat ∧ c.toNat ≤ 57) := by
  change (decide (c.val ≥ 65 ∧ c.val ≤ 90) || (decide (c.val ≥ 97) && decide (c.val ≤ 122))
    || (decide (c.val ≥ 48) && decide (c.val ≤ 57))) = true at h
  simp only [Bool.or_eq_true, Bool.and_eq_true, decide_eq_true_eq, UInt32.le_iff_toNat_le, ge_iff_le] at h
  exact h

/-- A character of a token is not blank, and neither ends a pair nor parts it. -/
theorem isTokenChar_spec {c : Char} (h : isTokenChar c = true) : Text.isBlank c = false ∧ c ≠ ';' ∧ c ≠ '=' := by
  have hchar : c.isAlphanum = true ∨ c ∈ tokenMarks := by simpa [isTokenChar] using h
  rcases hchar with halnum | hmark
  · -- Letters and digits lie apart from the blanks.
    have hcode := toNat_of_isAlphanum halnum
    refine ⟨?_, ?_, ?_⟩
    · simp [Text.isBlank]
      omega
    · rintro rfl
      revert halnum
      decide
    · rintro rfl
      revert halnum
      decide
  · have hall : ∀ c ∈ tokenMarks, Text.isBlank c = false ∧ c ≠ ';' ∧ c ≠ '=' := by
      simp [tokenMarks, Text.isBlank]
    exact hall c hmark

/-! ### One line -/

/-- What a request line states: `text` is well-formed UTF-8 of exactly three words, the first of them a token and the
last one the name of a protocol. -/
def requestLine? (text : Bytes) : Option (Method × String × String) :=
  match (Text.Utf8.decode? text).map Text.words with
  | some [method, target, protocol] =>
    if isToken method ∧ "HTTP/".toList <+: protocol.toList then some (.ofToken method, target, protocol)
    else none
  | _ => none

/-- The field that a header line states: what stands before and after the first colon of `text`, blanks around both not
counted. -/
def fieldOf? (text : Bytes) : Option HeaderField :=
  let chars := (Text.Utf8.decodeLossy text).toList
  let name := Text.trim (String.ofList (chars.takeWhile (· ≠ ':')))
  let value := Text.trim (String.ofList ((chars.dropWhile (· ≠ ':')).drop 1))
  if ':' ∈ chars ∧ isToken name then some ⟨name, value⟩ else none

/-- The field that `l` states by `fieldOf?`, if it is within `limit`. -/
def Line.field? (limit : Nat) (l : Line) : Option HeaderField :=
  if l.isLong limit then none else fieldOf? l.text

/-- `requestLine?` reads the encoding of a text of exactly three words, the first of them a token, the last starting
with `HTTP/`. -/
theorem requestLine?_eq_some_iff {text : Bytes} {m : Method} {target protocol : String} :
    requestLine? text = some (m, target, protocol) ↔
      ∃ s method, text = Text.Utf8.encode s ∧ Text.words s = [method, target, protocol] ∧
        isToken method = true ∧ "HTTP/".toList <+: protocol.toList ∧ m = .ofToken method := by
  constructor
  · intro h
    unfold requestLine? at h
    split at h
    · -- `words` gives three words, and they pass the two tests.
      next method t p hw =>
      obtain ⟨s, hs, hw⟩ := Option.map_eq_some_iff.1 hw
      split at h
      · next hm =>
        obtain ⟨rfl, rfl, rfl⟩ : Method.ofToken method = m ∧ t = target ∧ p = protocol := by simpa using h
        exact ⟨s, method, Text.Utf8.decode?_eq_some_iff.1 hs, hw, hm.1, hm.2, rfl⟩
      · simp at h
    · simp at h
  · rintro ⟨s, method, rfl, hw, hm, hp, rfl⟩
    have hs : Text.Utf8.decode? (Text.Utf8.encode s) = some s := Text.Utf8.decode?_eq_some_iff.2 rfl
    simp only [requestLine?, hs, Option.map_some, hw]
    rw [if_pos ⟨hm, hp⟩]

/-- The reader's `parseRequestLine?` reads the same. -/
theorem parseRequestLine?_eq (text : Bytes) : parseRequestLine? text = requestLine? text := by
  have hstart : ∀ s, Text.startsWith "HTTP/" s = decide ("HTTP/".toList <+: s.toList) := by
    intro s
    rw [Bool.eq_iff_iff, Text.startsWith, Option.isSome_iff_exists, decide_eq_true_iff]
    simp only [Text.dropHead?_eq_some_iff]
    exact exists_congr fun t => eq_comm
  unfold parseRequestLine? requestLine?
  cases Text.Utf8.decode? text with
  | none => rfl
  | some s =>
    simp only [Option.bind_eq_bind, Option.bind_some, Option.map_some, hstart]
    split <;> simp_all

/-- `fieldOf?` in terms of `splitOnce`, as the reader cuts. -/
theorem fieldOf?_eq (text : Bytes) : fieldOf? text =
    (Text.splitOnce ':' (Text.Utf8.decodeLossy text).toList).bind fun p =>
      if isToken (Text.trim (String.ofList p.1)) then
        some ⟨Text.trim (String.ofList p.1), Text.trim (String.ofList p.2)⟩
      else none := by
  rw [Text.splitOnce_eq, fieldOf?]
  by_cases hc : ':' ∈ (Text.Utf8.decodeLossy text).toList
  · simp only [hc, true_and, if_true, Option.bind_some]
  · simp only [hc, false_and, if_false, Option.bind_none]

/-- `fieldOf?` reads the name and the value around the first colon, trimmed. -/
theorem fieldOf?_eq_some_iff {text : Bytes} {f : HeaderField} : fieldOf? text = some f ↔
    ∃ a b, (Text.Utf8.decodeLossy text).toList = a ++ ':' :: b ∧ ':' ∉ a ∧
      isToken (Text.trim (String.ofList a)) = true ∧
      f = ⟨Text.trim (String.ofList a), Text.trim (String.ofList b)⟩ := by
  rw [fieldOf?_eq, Option.bind_eq_some_iff]
  constructor
  · rintro ⟨⟨a, b⟩, hab, hf⟩
    obtain ⟨htext, ha⟩ := Text.splitOnce_eq_some_iff.1 hab
    split at hf
    · next hm => exact ⟨a, b, htext, ha, hm, (Option.some.inj hf).symm⟩
    · simp at hf
  · rintro ⟨a, b, htext, ha, hm, rfl⟩
    exact ⟨(a, b), Text.splitOnce_eq_some_iff.2 ⟨htext, ha⟩, if_pos hm⟩

/-- The reader's `parseField` reads the same, or reports the line. -/
theorem parseField_eq (text : Bytes) : parseField text =
    match fieldOf? text with
    | some f => .ok f
    | none => .error (.invalidHeader (Text.Utf8.decodeLossy text)) := by
  rw [fieldOf?_eq, parseField, Text.cut]
  cases Text.splitOnce ':' (Text.Utf8.decodeLossy text).toList with
  | none => rfl
  | some p =>
    simp only [Option.map_some, Option.bind_some]
    split <;> rfl

theorem fieldOf?_nil : fieldOf? [] = none := by
  simp [fieldOf?, Text.Utf8.decodeLossy, Text.Utf8.chars]

/-! ### The whole input -/

/-- The fields of a head and the place where it ends. The lines `ls` follow the request line, in an input of
`size` bytes; the first one that is not a field within the limit decides. -/
def fieldsOf (limit size : Nat) (ls : List Line) : Except HeadError Headers × Nat :=
  let fields := (ls.takeWhile fun l => (l.field? limit).isSome).filterMap (Line.field? limit)
  match ls.dropWhile fun l => (l.field? limit).isSome with
  | [] => (.ok ⟨fields⟩, size)
  | l :: _ =>
    if l.isLong limit then (.error (.lineTooLong limit), l.overflowEnd limit)
    else if l.text = [] then (.ok ⟨fields⟩, l.stop)
    else (.error (.invalidHeader (Text.Utf8.decodeLossy l.text)), l.stop)

/-- What a first line within the limit and the lines `ls` after it tell. Nothing after a garbled request line
counts. -/
def headAfter (limit size : Nat) (first : Line) (ls : List Line) : Except HeadError RequestHead × Nat :=
  match requestLine? first.text with
  | none => (.ok .blank, first.stop)
  | some (method, target, protocol) =>
    ((fieldsOf limit size ls).1.map fun headers => ⟨some method, target, protocol, headers⟩,
      (fieldsOf limit size ls).2)

/-- The head of `bs` and the place where it ends. -/
def headOf (limit : Nat) (bs : Bytes) : Except HeadError RequestHead × Nat :=
  match linesFrom 0 bs with
  | [] => (.ok .blank, bs.length)
  | first :: ls =>
    if first.isLong limit then (.error (.lineTooLong limit), first.overflowEnd limit)
    else headAfter limit bs.length first ls

section HeadOf

variable {limit : Nat} {bs : Bytes} {first : Line} {ls : List Line}

/-- `headOf` of an input without lines (`h`) is blank. -/
theorem headOf_of_eq_nil (h : linesFrom 0 bs = []) : headOf limit bs = (.ok .blank, bs.length) := by
  rw [headOf, h]

/-- `headOf` stops in a first line that is too long (`hl`). -/
theorem headOf_of_long (h : linesFrom 0 bs = first :: ls) (hl : first.isLong limit = true) :
    headOf limit bs = (.error (.lineTooLong limit), first.overflowEnd limit) := by
  rw [headOf, h]
  exact if_pos hl

/-- Any other first line (`hl`) is read as `headAfter` says. -/
theorem headOf_of_not_long (h : linesFrom 0 bs = first :: ls) (hl : first.isLong limit = false) :
    headOf limit bs = headAfter limit bs.length first ls := by
  rw [headOf, h]
  exact if_neg (by simp [hl])

end HeadOf

section FieldsOf

variable {limit size : Nat} {l : Line} {ls : List Line}

/-- `fieldsOf` no lines ends with the input. -/
theorem fieldsOf_nil (limit size : Nat) : fieldsOf limit size [] = (.ok .empty, size) := rfl

/-- `fieldsOf` stops in a line that is too long (`h`). -/
theorem fieldsOf_of_long (h : l.isLong limit = true) :
    fieldsOf limit size (l :: ls) = (.error (.lineTooLong limit), l.overflowEnd limit) := by
  simp [fieldsOf, Line.field?, h]

/-- `fieldsOf` ends with the blank line (`h`). -/
theorem fieldsOf_of_text_eq_nil (h : l.text = []) : fieldsOf limit size (l :: ls) = (.ok .empty, l.stop) := by
  simp [fieldsOf, Line.field?, Line.isLong, h, fieldOf?_nil, Headers.empty]

/-- `fieldsOf` stops behind a line that states no field (`h`), and reports it. -/
theorem fieldsOf_of_eq_none (hl : l.isLong limit = false) (ht : l.text ≠ []) (h : fieldOf? l.text = none) :
    fieldsOf limit size (l :: ls) = (.error (.invalidHeader (Text.Utf8.decodeLossy l.text)), l.stop) := by
  simp [fieldsOf, Line.field?, hl, ht, h]

/-- `fieldsOf` puts the field that a line states (`h`) in front of those behind it. -/
theorem fieldsOf_of_eq_some (hl : l.isLong limit = false) {f : HeaderField} (h : fieldOf? l.text = some f) :
    fieldsOf limit size (l :: ls) = ((fieldsOf limit size ls).1.map fun r => ⟨f :: r.fields⟩,
      (fieldsOf limit size ls).2) := by
  have hf : l.field? limit = some f := by simp [Line.field?, hl, h]
  simp only [fieldsOf, List.takeWhile_cons, List.dropWhile_cons, hf, Option.isSome_some, if_true,
    List.filterMap_cons]
  split
  · rfl
  · split
    · rfl
    · split <;> rfl

end FieldsOf

/-! ### Reading the fields -/

section ReadFields

variable {limit : Nat} {ending : Ending} {got : Headers} {bs rest text : Bytes}

/-- `readFields` stops in a line that is too long, where `readLine` does (`h`). -/
theorem readFields_of_overflow (h : readLine limit bs = .overflow rest) :
    readFields limit ending got bs = (.error (.lineTooLong limit), rest) := by
  rw [readFields]
  split <;> simp_all

/-- `readFields` ends with the blank line (`h`). -/
theorem readFields_of_line_nil (h : readLine limit bs = .line [] rest) :
    readFields limit ending got bs = (.ok got, rest) := by
  rw [readFields]
  split <;> simp_all

/-- `readFields` goes on behind any other line (`ht`) that states a field, and stops behind one that does not. -/
theorem readFields_of_line (h : readLine limit bs = .line text rest) (ht : text ≠ []) :
    readFields limit ending got bs = match fieldOf? text with
      | some f => readFields limit ending (got.append f.name f.value) rest
      | none => (.error (.invalidHeader (Text.Utf8.decodeLossy text)), rest) := by
  rw [readFields]
  split
  · simp_all
  · simp_all
  · next text' rest' h' =>
    obtain ⟨rfl, rfl⟩ : text' = text ∧ rest' = rest := by simpa [h] using h'.symm
    rw [if_neg (by simpa using ht), parseField_eq]
    cases fieldOf? text' <;> rfl

/-- `readFields` ends where the input does (`h`), within a line or behind one. -/
theorem readFields_of_ended (h : readLine limit bs = .ended text) :
    readFields limit .closed got bs = (if text = [] then .ok got else match fieldOf? text with
      | some f => .ok (got.append f.name f.value)
      | none => .error (.invalidHeader (Text.Utf8.decodeLossy text)), []) := by
  rw [readFields]
  split
  · simp_all
  · next text' h' =>
    obtain rfl : text' = text := by simpa [h] using h'.symm
    rw [parseField_eq]
    by_cases ht : text' = []
    · simp [ht, atEnd]
    · simp only [List.isEmpty_iff, ht, if_false, atEnd]
      cases fieldOf? text' <;> rfl
  · simp_all

end ReadFields

/-- What is read from an input that starts at the place `start` is what was told of it: the same value, and all
bytes from the place of its end on left unread. -/
structure Agrees {α : Type} (start : Nat) (bs : Bytes) (read : Except HeadError α × Bytes)
    (told : Except HeadError α × Nat) : Prop where
  value : read.1 = told.1
  unread : read.2 = bs.drop (told.2 - start)
  start_le : start ≤ told.2
  stop_le : told.2 ≤ start + bs.length

namespace Agrees

variable {α : Type} {p rest : Bytes}

/-- If reading the rest `Agrees`, so does reading behind one more line. -/
theorem append {start : Nat} {read : Except HeadError α × Bytes} {told : Except HeadError α × Nat}
    (h : Agrees (start + p.length + 1) rest read told) : Agrees start (p ++ 10 :: rest) read told := by
  have hge := h.start_le
  have hle := h.stop_le
  refine ⟨h.value, ?_, by omega, ?_⟩
  · -- Counted from `start`, the end `told.2` lies beyond all of `p`.
    obtain ⟨n, hn⟩ : ∃ n, told.2 = start + p.length + 1 + n := ⟨told.2 - (start + p.length + 1), by omega⟩
    have hd : told.2 - start = p.length + (1 + n) := by omega
    rw [h.unread, hd, hn, Nat.add_sub_cancel_left, ← List.drop_drop, List.drop_left, Nat.add_comm,
      List.drop_succ_cons]
  · simp only [List.length_append, List.length_cons]
    omega

variable (start : Nat) (value : Except HeadError α)

/-- Reading that stops at a line that is too long (`h`) `Agrees` at the place of the overflow. -/
theorem of_long {limit : Nat} (h : limit < (textOf p).length) (rest : Bytes) :
    Agrees start (p ++ rest) (value, (p ++ rest).drop (overflowSize limit p))
      (value, start + overflowSize limit p) := by
  have hle := overflowSize_le h
  refine ⟨rfl, ?_, Nat.le_add_right _ _, ?_⟩
  · rw [Nat.add_sub_cancel_left]
  · rw [List.length_append]
    omega

/-- Reading that stops behind a line feed `Agrees` at that place. -/
theorem of_line : Agrees start (p ++ 10 :: rest) (value, rest) (value, start + p.length + 1) := by
  refine ⟨rfl, ?_, by omega, ?_⟩
  · rw [Nat.add_assoc, Nat.add_sub_cancel_left, ← List.drop_drop, List.drop_left, List.drop_one, List.tail_cons]
  · simp only [List.length_append, List.length_cons]
    omega

/-- Reading that stops at the end of the input `Agrees` there. -/
theorem of_end (bs : Bytes) : Agrees start bs (value, []) (value, start + bs.length) := by
  refine ⟨rfl, ?_, Nat.le_add_right _ _, Nat.le_refl _⟩
  rw [Nat.add_sub_cancel_left, List.drop_length]

end Agrees

/-- What is told of fields that come after those of `got`. -/
def Headers.before (got : Headers) (told : Except HeadError Headers × Nat) : Except HeadError Headers × Nat :=
  (told.1.map fun r => ⟨got.fields ++ r.fields⟩, told.2)

@[simp] theorem Headers.before_error (got : Headers) (e : HeadError) (n : Nat) :
    got.before (.error e, n) = (.error e, n) := rfl

@[simp] theorem Headers.before_empty (got : Headers) (n : Nat) : got.before (.ok .empty, n) = (.ok got, n) := by
  simp [Headers.before, Headers.empty, Except.map]

theorem Headers.empty_before (told : Except HeadError Headers × Nat) : empty.before told = told := by
  obtain ⟨r, n⟩ := told
  cases r <;> rfl

theorem Headers.before_fieldsOf {limit size : Nat} {l : Line} {ls : List Line} (hl : l.isLong limit = false)
    {f : HeaderField} (h : fieldOf? l.text = some f) (got : Headers) :
    got.before (fieldsOf limit size (l :: ls))
      = (got.append f.name f.value).before (fieldsOf limit size ls) := by
  rw [fieldsOf_of_eq_some hl h]
  cases hr : (fieldsOf limit size ls).1 <;> simp [Headers.before, Headers.append, Except.map, hr]

/-- Fields are read as `fieldsOf` the lines says, after those of `got`. -/
theorem agrees_readFields (limit : Nat) (bs : Bytes) (start : Nat) (got : Headers) :
    Agrees start bs (readFields limit .closed got bs)
      (got.before (fieldsOf limit (start + bs.length) (linesFrom start bs))) := by
  -- By induction on the lines of `bs`: each field moves `start` on and joins those in `got`.
  induction bs using line_induction generalizing start got with
  | last p hp =>
    rw [linesFrom_of_not_mem hp]
    by_cases hlong : limit < (textOf p).length
    · have hread := readLine_of_long hp hlong []
      have ht : textOf p ≠ [] := by
        intro h
        simp [h] at hlong
      rw [List.append_nil] at hread
      rw [if_neg ht, readFields_of_overflow hread, fieldsOf_of_long (by simpa using hlong)]
      simpa using Agrees.of_long start (Except.error (HeadError.lineTooLong limit)) hlong []
    · have hl : (⟨p, start, start + p.length⟩ : Line).isLong limit = false := by simpa using hlong
      rw [readFields_of_ended (readLine_of_not_mem hp (Nat.le_of_not_lt hlong))]
      by_cases ht : textOf p = []
      · -- Carriage returns alone are no line, neither for the reader nor among the lines.
        rw [if_pos ht, if_pos ht, fieldsOf_nil, Headers.before_empty]
        exact .of_end _ _ p
      · rw [if_neg ht, if_neg ht]
        cases hf : fieldOf? (textOf p) with
        | none =>
          rw [fieldsOf_of_eq_none hl ht hf]
          exact .of_end _ _ p
        | some f =>
          rw [Headers.before_fieldsOf hl hf, fieldsOf_nil, Headers.before_empty]
          exact .of_end _ _ p
  | line p rest hp ih =>
    have hsize : start + (p ++ 10 :: rest).length = start + p.length + 1 + rest.length := by
      simp only [List.length_append, List.length_cons]
      omega
    rw [linesFrom_append hp, hsize]
    by_cases hlong : limit < (textOf p).length
    · rw [readFields_of_overflow (readLine_of_long hp hlong _), fieldsOf_of_long (by simpa using hlong)]
      exact .of_long _ _ hlong _
    · have hl : (⟨p, start, start + p.length + 1⟩ : Line).isLong limit = false := by simpa using hlong
      have hread := readLine_append hp (Nat.le_of_not_lt hlong) rest
      by_cases ht : textOf p = []
      · rw [ht] at hread
        rw [readFields_of_line_nil hread, fieldsOf_of_text_eq_nil (l := ⟨p, start, _⟩) ht, Headers.before_empty]
        exact .of_line _ _
      · rw [readFields_of_line hread ht]
        cases hf : fieldOf? (textOf p) with
        | none =>
          rw [fieldsOf_of_eq_none hl ht hf]
          exact .of_line _ _
        | some f =>
          rw [Headers.before_fieldsOf hl hf]
          exact (ih (start + p.length + 1) (got.append f.name f.value)).append

/-! ### Reading a head -/

/-- `Agrees` does not depend on what is made of the value. -/
theorem Agrees.map {α β : Type} {start : Nat} {bs : Bytes} {read : Except HeadError α × Bytes}
    {told : Except HeadError α × Nat} (h : Agrees start bs read told) (f : α → β) :
    Agrees start bs (read.1.map f, read.2) (told.1.map f, told.2) :=
  ⟨by rw [h.value], h.unread, h.start_le, h.stop_le⟩

/-- What is read after the first line `Agrees`, if the places do where the line (`hline`) and the fields (`hfields`)
end. -/
theorem Agrees.readAfterLine {limit : Nat} {bs rest : Bytes} (first : Line) {ls : List Line}
    (hline : ∀ value : Except HeadError RequestHead, Agrees 0 bs (value, rest) (value, first.stop))
    (hfields : Agrees 0 bs (readFields limit .closed .empty rest) (fieldsOf limit bs.length ls)) :
    Agrees 0 bs (readAfterLine limit .closed first.text rest) (headAfter limit bs.length first ls) := by
  rw [ServletContainer.readAfterLine, headAfter, parseRequestLine?_eq]
  cases requestLine? first.text with
  | none => exact hline _
  | some line => exact hfields.map _

section ReadHeadBytes

variable {limit : Nat} {ending : Ending} {bs rest text : Bytes}

/-- `readHeadBytes` stops in a first line that is too long (`h`). -/
theorem readHeadBytes_of_overflow (h : readLine limit bs = .overflow rest) :
    readHeadBytes limit ending bs = (.error (.lineTooLong limit), rest) := by
  rw [readHeadBytes, h]

/-- `readHeadBytes` goes on behind a first line that a line feed ends (`h`). -/
theorem readHeadBytes_of_line (h : readLine limit bs = .line text rest) :
    readHeadBytes limit ending bs = readAfterLine limit ending text rest := by
  rw [readHeadBytes, h]

/-- `readHeadBytes` has only a first line if the input ends in it (`h`). -/
theorem readHeadBytes_of_ended (h : readLine limit bs = .ended text) :
    readHeadBytes limit .closed bs =
      if text = [] then (.ok .blank, []) else readAfterLine limit .closed text [] := by
  rw [readHeadBytes, h]
  simp only [List.isEmpty_iff]

end ReadHeadBytes

/-- So a head is read as `headOf` says. -/
theorem agrees_readHeadBytes (limit : Nat) (bs : Bytes) :
    Agrees 0 bs (readHeadBytes limit .closed bs) (headOf limit bs) := by
  by_cases hf : 10 ∈ bs
  · obtain ⟨p, rest, hp, rfl⟩ := exists_eq_append_of_mem hf
    have hlines := linesFrom_append hp 0 rest
    by_cases hlong : limit < (textOf p).length
    · rw [readHeadBytes_of_overflow (readLine_of_long hp hlong _), headOf_of_long hlines (by simpa using hlong)]
      exact .of_long _ _ hlong _
    · rw [readHeadBytes_of_line (readLine_append hp (Nat.le_of_not_lt hlong) rest),
        headOf_of_not_long hlines (by simpa using hlong)]
      -- `agrees_readFields` from behind the first line on, counted from the start of the input.
      have hfields := (agrees_readFields limit rest (0 + p.length + 1) .empty).append
      have hsize : 0 + p.length + 1 + rest.length = (p ++ 10 :: rest).length := by
        simp only [List.length_append, List.length_cons]
        omega
      rw [Headers.empty_before, hsize] at hfields
      exact .readAfterLine ⟨p, 0, _⟩ (fun value => .of_line 0 value) hfields
  · have hlines := linesFrom_of_not_mem hf 0
    by_cases hlong : limit < (textOf bs).length
    · have hread := readLine_of_long hf hlong []
      have ht : textOf bs ≠ [] := List.ne_nil_of_length_pos (Nat.zero_lt_of_lt hlong)
      rw [List.append_nil] at hread
      rw [if_neg ht] at hlines
      rw [readHeadBytes_of_overflow hread, headOf_of_long hlines (by simpa using hlong)]
      simpa using Agrees.of_long 0 (Except.error (HeadError.lineTooLong limit)) hlong []
    · rw [readHeadBytes_of_ended (readLine_of_not_mem hf (Nat.le_of_not_lt hlong))]
      by_cases ht : textOf bs = []
      · rw [if_pos ht] at hlines
        rw [if_pos ht, headOf_of_eq_nil hlines]
        simpa using Agrees.of_end 0 (Except.ok _) bs
      · rw [if_neg ht] at hlines
        rw [if_neg ht, headOf_of_not_long hlines (by simpa using hlong)]
        have hfields : readFields limit .closed .empty [] = (.ok .empty, []) :=
          by rw [@readFields_of_ended limit .empty [] [] rfl, if_pos rfl]
        refine .readAfterLine ⟨bs, 0, _⟩ (fun value => .of_end 0 value bs) ?_
        rw [hfields, fieldsOf_nil]
        simpa using Agrees.of_end 0 (Except.ok _) bs

/-- **Heads.** `readHead`, which goes byte by byte, gives what `headOf` tells by the lines of the whole input, for every
input and every limit, and leaves unread just the bytes behind the place where that head ends. -/
theorem readHead_eq (limit : Nat) (bs : Bytes) :
    readHead limit ⟨bs, .closed⟩ = ((headOf limit bs).1, ⟨bs.drop (headOf limit bs).2, .closed⟩) ∧
      (headOf limit bs).2 ≤ bs.length := by
  have h := agrees_readHeadBytes limit bs
  refine ⟨?_, by simpa using h.stop_le⟩
  show ((readHeadBytes limit .closed bs).1, (⟨(readHeadBytes limit .closed bs).2, .closed⟩ : Source)) = _
  rw [h.value, h.unread, Nat.sub_zero]

/-! ### Heads that have a method -/

/-- Whether `head` is that of an input without a request line, or has a method and a protocol. -/
def RequestHead.IsProper (head : RequestHead) : Prop :=
  head = .blank ∨ head.method ≠ none ∧ Text.startsWith "HTTP/" head.protocol = true

section Heads

variable {limit : Nat} {head : RequestHead}

/-- The third word of a request line starts with `HTTP/`. -/
theorem startsWith_of_parseRequestLine? {line : Bytes} {m : Method} {target protocol : String}
    (h : parseRequestLine? line = some (m, target, protocol)) : Text.startsWith "HTTP/" protocol = true := by
  rw [parseRequestLine?_eq, requestLine?_eq_some_iff] at h
  obtain ⟨-, -, -, -, -, ⟨t, ht⟩, -⟩ := h
  rw [Text.startsWith, Option.isSome_iff_exists]
  exact ⟨t, Text.dropHead?_eq_some_iff.2 ht.symm⟩

/-- What is read behind the first line `IsProper`. -/
theorem isProper_of_readAfterLine {ending : Ending} {line rest : Bytes}
    (h : (readAfterLine limit ending line rest).1 = .ok head) : head.IsProper := by
  unfold readAfterLine at h
  split at h
  · exact .inl (Except.ok.inj h).symm
  · next m target protocol hline =>
    dsimp only at h
    cases hfields : (readFields limit ending .empty rest).1 with
    | error e =>
      rw [hfields] at h
      cases h
    | ok headers =>
      rw [hfields] at h
      obtain rfl := Except.ok.inj h
      exact .inr ⟨nofun, startsWith_of_parseRequestLine? hline⟩

/-- So a head that `readHead` gives (`h`) `IsProper`: one that has a method names a protocol. -/
theorem isProper_of_readHead {source : Source} (h : (readHead limit source).1 = .ok head) : head.IsProper := by
  unfold readHead readHeadBytes at h
  dsimp only at h
  split at h
  · cases h
  · exact isProper_of_readAfterLine h
  · split at h
    · split at h
      · exact .inl (Except.ok.inj h).symm
      · exact isProper_of_readAfterLine h
    · cases h
    · cases h

end Heads

end ServletContainer
