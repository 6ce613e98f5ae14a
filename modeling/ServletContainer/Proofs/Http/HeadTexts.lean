import ServletContainer.Proofs.Http.HeadLines
import ServletContainer.Proofs.Http.HeadReading
import ServletContainer.Proofs.Text.Parts

namespace ServletContainer

/-!
# The texts of a head

A line is read without its line end and without carriage returns, and so no text of a head has a line end, whatever bytes
come in.

* `LineRead.IsEndless`, `isEndless_readLine` — the bytes of a line.
* `StaysOnLine.mono`, `staysOnLine_decodeLossy` — a part of a text, and a text that is decoded.
* `ReadsInto` — what is read, or else the line that could not be read.
* `RequestHead.KeepsToLines`, `readsInto_readHead` — the texts of a head.
-/

/-! ### Lines -/

/-- Whether what `readLine` has read of a line has no line end. -/
def LineRead.IsEndless : LineRead → Prop
  | .line text _ | .ended text => Endless text
  | .overflow _ => True

/-- A byte that ends no line may be put in front. -/
theorem LineRead.IsEndless.cons {l : LineRead} (h : l.IsEndless) {b : UInt8} (hfeed : b ≠ 10) (hreturn : b ≠ 13) :
    (l.cons b).IsEndless := by
  have hcons : ∀ text, Endless text → Endless (b :: text) := by
    intro text htext
    simpa [Endless, hfeed.symm, hreturn.symm] using htext
  cases l with
  | line text rest => exact hcons text h
  | overflow => trivial
  | ended text => exact hcons text h

/-- `readLine` leaves carriage returns out, and ends a line at its first line feed. -/
theorem isEndless_readLine (limit : Nat) (bs : Bytes) : (readLine limit bs).IsEndless := by
  have hnil : Endless [] := by simp [Endless]
  fun_induction readLine limit bs with
  | case1 => exact hnil
  | case2 => exact hnil
  | case3 limit r _ ih => exact ih
  | case4 => trivial
  | case5 b r hfeed hreturn limit ih => exact ih.cons hfeed hreturn

/-! ### Texts -/

theorem StaysOnLine.mono {s t : String} (h : StaysOnLine t) (hsub : s.toList ⊆ t.toList) : StaysOnLine s :=
  ⟨fun hreturn => h.1 (hsub hreturn), fun hfeed => h.2 (hsub hfeed)⟩

theorem staysOnLine_decodeLossy {bs : Bytes} (h : Endless bs) : StaysOnLine (Text.Utf8.decodeLossy bs) :=
  ⟨fun hreturn => h.1 (Text.Utf8.mem_of_mem_decodeLossy (by decide) hreturn),
    fun hfeed => h.2 (Text.Utf8.mem_of_mem_decodeLossy (by decide) hfeed)⟩

/-! ### What is read -/

/-- Whether only what is `good` is read, and a line that cannot be read is reported without a line end. -/
structure ReadsInto {α : Type} (good : α → Prop) (read : Except HeadError α) : Prop where
  value : ∀ a, read = .ok a → good a
  line : ∀ line, read = .error (.invalidHeader line) → StaysOnLine line

namespace ReadsInto

variable {α β : Type} {good : α → Prop} {good' : β → Prop} {read : Except HeadError α}

/-- What is `good` may be read. -/
theorem ok {a : α} (h : good a) : ReadsInto good (.ok a) where
  value b hb := Except.ok.inj hb ▸ h
  line _ hline := by cases hline

/-- An error may be reported whose line has no line end (`h`). -/
theorem error {e : HeadError} (h : ∀ line, e = .invalidHeader line → StaysOnLine line) :
    ReadsInto good (.error e) where
  value _ hvalue := by cases hvalue
  line text htext := h text (Except.error.inj htext)

/-- `ReadsInto` goes through `map`. -/
theorem map (h : ReadsInto good read) {f : α → β} (hf : ∀ a, good a → good' (f a)) :
    ReadsInto good' (read.map f) := by
  cases read with
  | ok a => exact .ok (hf a (h.value a rfl))
  | error e => exact .error fun line he => h.line line (congrArg Except.error he)

/-- At the end of an input only lines are reported that the peer has ended. -/
theorem atEnd (h : ReadsInto good read) (ending : Ending) : ReadsInto good (atEnd ending read) := by
  cases ending with
  | closed => exact h
  | failed => exact .error nofun
  | silent => exact .error nofun

end ReadsInto

/-- Whether no text of `head` has a line end. -/
structure RequestHead.KeepsToLines (head : RequestHead) : Prop where
  method : ∀ m, head.method = some m → StaysOnLine m.token
  target : StaysOnLine head.target
  protocol : StaysOnLine head.protocol
  fields : ∀ f ∈ head.headers.fields, f.KeepsToLine

/-- The blank head has no texts. -/
theorem RequestHead.keepsToLines_blank : RequestHead.blank.KeepsToLines where
  method _ h := by cases h
  target := by decide
  protocol := by decide
  fields _ h := by cases h

/-- `parseField` cuts name and value out of a line without line ends. -/
theorem readsInto_parseField {line : Bytes} (h : Endless line) :
    ReadsInto HeaderField.KeepsToLine (parseField line) := by
  have htext := staysOnLine_decodeLossy h
  have hline : ∀ text, HeadError.invalidHeader (Text.Utf8.decodeLossy line) = .invalidHeader text → StaysOnLine text :=
    fun text he => HeadError.invalidHeader.inj he ▸ htext
  unfold parseField
  dsimp only
  split
  · exact .error hline
  · -- `name` and `value` are parts of the line.
    next name value hcut =>
    obtain ⟨hname, hvalue⟩ := Text.cut_subset hcut
    split
    · refine .ok ⟨htext.mono ?_, htext.mono ?_⟩
      · exact List.Subset.trans (Text.trim_subset name) hname
      · exact List.Subset.trans (Text.trim_subset value) hvalue
    · exact .error hline

/-- So `readFields` reads fields that keep to their lines, after others that do (`hgot`). -/
theorem readsInto_readFields (limit : Nat) (ending : Ending) {got : Headers} (hgot : ∀ f ∈ got.fields, f.KeepsToLine)
    (bs : Bytes) :
    ReadsInto (fun h : Headers => ∀ f ∈ h.fields, f.KeepsToLine) (readFields limit ending got bs).1 := by
  -- What carries the induction: `append` of a field that keeps to its line.
  have happend : ∀ {got : Headers} {f : HeaderField}, (∀ g ∈ got.fields, g.KeepsToLine) → f.KeepsToLine →
      ∀ g ∈ (got.append f.name f.value).fields, g.KeepsToLine := by
    intro got f hgot hf g hg
    rcases List.mem_append.1 hg with hg | hg
    · exact hgot g hg
    · exact List.mem_singleton.1 hg ▸ hf
  fun_induction readFields limit ending got bs with
  | case1 => exact .error nofun
  | case2 got bs text h =>
    have hline := h ▸ isEndless_readLine limit bs
    refine ReadsInto.atEnd ?_ ending
    split
    · exact .ok hgot
    · exact (readsInto_parseField hline).map fun f hf => happend hgot hf
  | case3 => exact .ok hgot
  | case4 got bs text rest h _ e he =>
    have hline := h ▸ isEndless_readLine limit bs
    exact .error fun line heq => (readsInto_parseField hline).line line (he.trans (congrArg Except.error heq))
  | case5 got bs text rest h _ f hf _ ih =>
    have hline := h ▸ isEndless_readLine limit bs
    exact ih (happend hgot ((readsInto_parseField hline).value f hf))

/-- And so do the three words of a request line. -/
theorem staysOnLine_of_parseRequestLine? {line : Bytes} (h : Endless line) {m : Method} {target protocol : String}
    (hparse : parseRequestLine? line = some (m, target, protocol)) :
    StaysOnLine m.token ∧ StaysOnLine target ∧ StaysOnLine protocol := by
  -- By `requestLine?_eq_some_iff` a request line is three words of a text.
  rw [parseRequestLine?_eq] at hparse
  obtain ⟨s, method, rfl, hwords, -, -, rfl⟩ := requestLine?_eq_some_iff.1 hparse
  have hs := endless_encode_iff.1 h
  have hword : ∀ w ∈ Text.words s, StaysOnLine w := fun w hw => hs.mono (Text.words_subset hw)
  rw [hwords] at hword
  rw [Method.token_ofToken]
  exact ⟨hword method (by simp), hword target (by simp), hword protocol (by simp)⟩

/-- Thus a head `KeepsToLines` as far as it is read behind its first line. -/
theorem readsInto_readAfterLine (limit : Nat) (ending : Ending) {line : Bytes} (h : Endless line) (rest : Bytes) :
    ReadsInto RequestHead.KeepsToLines (readAfterLine limit ending line rest).1 := by
  unfold readAfterLine
  split
  · exact .ok RequestHead.keepsToLines_blank
  · next m target protocol hparse =>
    obtain ⟨hmethod, htarget, hprotocol⟩ := staysOnLine_of_parseRequestLine? h hparse
    have hnone : ∀ f ∈ Headers.empty.fields, f.KeepsToLine := fun _ hf => by cases hf
    have hfields := readsInto_readFields limit ending hnone rest
    refine hfields.map fun headers hheaders => ⟨?_, htarget, hprotocol, hheaders⟩
    exact fun m' hm => Option.some.inj hm ▸ hmethod

/-- Whatever bytes come in, and however they end, `readHead` gives a head that `KeepsToLines`. -/
theorem readsInto_readHead (limit : Nat) (source : Source) :
    ReadsInto RequestHead.KeepsToLines (readHead limit source).1 := by
  show ReadsInto RequestHead.KeepsToLines (readHeadBytes limit source.ending source.unread).1
  have hline := isEndless_readLine limit source.unread
  -- `readLine` decides: too long, ended by a line feed, or cut off by the end of the input.
  unfold readHeadBytes
  split
  · exact .error nofun
  · next text rest h =>
    rw [h] at hline
    exact readsInto_readAfterLine limit _ hline rest
  · next text h =>
    rw [h] at hline
    split
    · split
      · exact .ok RequestHead.keepsToLines_blank
      · exact readsInto_readAfterLine limit _ hline []
    · exact .error nofun
    · exact .error nofun

end ServletContainer
