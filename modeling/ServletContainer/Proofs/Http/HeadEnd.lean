import ServletContainer.Proofs.Http.HeadReading

namespace ServletContainer

/-!
# Where a head stops

Reading a head stops at a byte that the bytes so far settle, whatever follows: the line feed of the blank line, of a
garbled request line or of a malformed header line, or the byte beyond what a line may hold.

* `FieldsEnd`, `HeadEnd` — the bytes up to such a place.
* `exists_readHead_of_headEnd` — reading stops there, and leaves what follows as it is.
* `readHead_eq_stalled_iff` — an input without such a place is waited on.
-/

/-! ### Lines -/

/-- Whether `p` has the bytes of a line, up to its line feed, and not more than `limit`. -/
structure FitsLine (limit : Nat) (p : Bytes) : Prop where
  noFeed : 10 ∉ p
  short : (textOf p).length ≤ limit

/-- Whether bytes are those of a line up to the first one beyond `limit`. -/
inductive Overflows (limit : Nat) : Bytes → Prop
  | last {p : Bytes} {b : UInt8} : 10 ∉ p → (textOf p).length = limit → b ≠ 10 → b ≠ 13 → Overflows limit (p ++ [b])

section Lines

variable {limit : Nat} {p : Bytes}

/-- A line that `FitsLine` is read, with its line feed. -/
theorem FitsLine.readLine (h : FitsLine limit p) (rest : Bytes) :
    readLine limit (p ++ 10 :: rest) = .line (textOf p) rest := readLine_append h.noFeed h.short rest

/-- What overflows does so with more bytes in front. -/
theorem foldr_cons_overflow (l rest : Bytes) : l.foldr LineRead.cons (.overflow rest) = .overflow rest := by
  induction l with
  | nil => rfl
  | cons b l ih => rw [List.foldr_cons, ih]; rfl

/-- Reading stops behind the byte that overflows. -/
theorem Overflows.readLine (h : Overflows limit p) (rest : Bytes) : readLine limit (p ++ rest) = .overflow rest := by
  obtain ⟨hfeed, hsize, hb, hr⟩ := h
  -- The bytes in front of `b` leave no room.
  rw [List.append_assoc, readLine_of_short hfeed hsize.le, hsize, Nat.sub_self, List.singleton_append,
    readLine_zero_cons hb hr, foldr_cons_overflow]

/-- A line that is too long has a first byte beyond the limit, by induction from its end. -/
theorem exists_overflows (hp : 10 ∉ p) (hlong : limit < (textOf p).length) : ∃ q, Overflows limit q ∧ q <+: p := by
  induction p using List.reverseRecOn with
  | nil => cases hlong
  | append_singleton p b ih =>
    obtain ⟨hfeed, hb⟩ : 10 ∉ p ∧ b ≠ 10 := by simpa [eq_comm] using hp
    by_cases hbefore : limit < (textOf p).length
    · obtain ⟨q, hq, hprefix⟩ := ih hfeed hbefore
      exact ⟨q, hq, hprefix.trans (List.prefix_append p [b])⟩
    · -- `b` is the first byte that does not fit, so it counts and there was room up to it.
      have htext : textOf (p ++ [b]) = textOf p ++ textOf [b] := List.filter_append ..
      have hr : b ≠ 13 := by
        rintro rfl
        rw [htext] at hlong
        exact hbefore (by simpa [textOf] using hlong)
      have hsize : (textOf p).length = limit := by
        rw [htext, List.length_append, textOf_cons, if_neg hr] at hlong
        simp only [textOf_nil, List.length_cons, List.length_nil] at hlong
        omega
      exact ⟨_, .last hfeed hsize hb hr, List.prefix_refl _⟩

/-- An input starts with a line that `FitsLine`, or `Overflows`, or ends within one that fits so far. -/
theorem line_cases (limit : Nat) (bs : Bytes) :
    (∃ p rest, FitsLine limit p ∧ bs = p ++ 10 :: rest) ∨ (∃ p, Overflows limit p ∧ p <+: bs) ∨ FitsLine limit bs := by
  by_cases hfeed : 10 ∈ bs
  · obtain ⟨p, rest, hp, rfl⟩ := exists_eq_append_of_mem hfeed
    by_cases hlong : limit < (textOf p).length
    · obtain ⟨q, hq, hprefix⟩ := exists_overflows hp hlong
      exact .inr (.inl ⟨q, hq, hprefix.trans (List.prefix_append p _)⟩)
    · exact .inl ⟨p, rest, ⟨hp, Nat.le_of_not_lt hlong⟩, rfl⟩
  · by_cases hlong : limit < (textOf bs).length
    · exact .inr (.inl (exists_overflows hfeed hlong))
    · exact .inr (.inr ⟨hfeed, Nat.le_of_not_lt hlong⟩)

end Lines

/-! ### Fields -/

/-- The bytes of header fields up to the place where `readFields` stops. -/
inductive FieldsEnd (limit : Nat) : Bytes → Prop
  | blank {p : Bytes} : FitsLine limit p → textOf p = [] → FieldsEnd limit (p ++ [10])
  | malformed {p : Bytes} : FitsLine limit p → textOf p ≠ [] → fieldOf? (textOf p) = none → FieldsEnd limit (p ++ [10])
  | overflow {p : Bytes} : Overflows limit p → FieldsEnd limit p
  | field {p q : Bytes} {f : HeaderField} : FitsLine limit p → fieldOf? (textOf p) = some f → FieldsEnd limit q →
    FieldsEnd limit (p ++ 10 :: q)

variable {limit : Nat} {p q bs : Bytes}

/-- No field is read of an empty line. -/
theorem ne_nil_of_fieldOf? {text : Bytes} {f : HeaderField} (h : fieldOf? text = some f) : text ≠ [] := by
  rintro rfl
  rw [fieldOf?_nil] at h
  cases h

/-- `readFields` stops at `FieldsEnd`, with one result, whatever follows and however the input ends. -/
theorem exists_readFields_of_fieldsEnd (h : FieldsEnd limit p) (got : Headers) :
    ∃ result, result ≠ .error .stalled ∧
      ∀ rest ending, readFields limit ending got (p ++ rest) = (result, rest) := by
  -- By induction on `h`, line by line, each of which is read the same whatever follows.
  induction h generalizing got with
  | blank hp hnil =>
    refine ⟨.ok got, nofun, fun rest ending => ?_⟩
    rw [List.append_assoc, List.singleton_append, readFields_of_line_nil (hnil ▸ hp.readLine rest)]
  | @malformed p hp hne hnone =>
    refine ⟨.error (.invalidHeader (Text.Utf8.decodeLossy (textOf p))), nofun, fun rest ending => ?_⟩
    rw [List.append_assoc, List.singleton_append, readFields_of_line (hp.readLine rest) hne, hnone]
  | overflow hp =>
    exact ⟨.error (.lineTooLong limit), nofun, fun rest ending => readFields_of_overflow (hp.readLine rest)⟩
  | field hp hf _ ih =>
    obtain ⟨result, hresult, hread⟩ := ih (got.append _ _)
    refine ⟨result, hresult, fun rest ending => ?_⟩
    rw [List.append_assoc, List.cons_append, readFields_of_line (hp.readLine _) (ne_nil_of_fieldOf? hf), hf]
    exact hread rest ending

/-- Within a line it waits, if the peer is silent. -/
theorem readFields_of_silent {got : Headers} {text : Bytes} (h : readLine limit bs = .ended text) :
    readFields limit .silent got bs = (.error .stalled, []) := by
  rw [readFields]
  split <;> simp_all [atEnd]

/-- So an input reaches `FieldsEnd`, or more of it is waited for, by induction on its lines. -/
theorem fieldsEnd_or_stalled (limit : Nat) (bs : Bytes) : (∃ p, FieldsEnd limit p ∧ p <+: bs) ∨
    ∀ got, (readFields limit .silent got bs).1 = .error .stalled := by
  -- `line_cases`: a line ends, or overflows, or the input ends within it.
  rcases line_cases limit bs with ⟨p, rest, hp, rfl⟩ | ⟨p, hp, hprefix⟩ | hp
  · by_cases hnil : textOf p = []
    · exact .inl ⟨_, .blank hp hnil, by simp⟩
    · cases hf : fieldOf? (textOf p) with
      | none => exact .inl ⟨_, .malformed hp hnil hf, by simp⟩
      | some f =>
        rcases fieldsEnd_or_stalled limit rest with ⟨q, hq, hprefix⟩ | hstalled
        · exact .inl ⟨_, .field hp hf hq, by simpa using hprefix⟩
        · refine .inr fun got => ?_
          rw [readFields_of_line (hp.readLine rest) hnil, hf]
          exact hstalled _
  · exact .inl ⟨p, .overflow hp, hprefix⟩
  · exact .inr fun got => by rw [readFields_of_silent (readLine_of_not_mem hp.noFeed hp.short)]
termination_by bs.length

/-! ### Heads -/

/-- The bytes of a head up to the place where `readHead` stops. -/
inductive HeadEnd (limit : Nat) : Bytes → Prop
  | garbled {p : Bytes} : FitsLine limit p → requestLine? (textOf p) = none → HeadEnd limit (p ++ [10])
  | overflow {p : Bytes} : Overflows limit p → HeadEnd limit p
  | fields {p q : Bytes} : FitsLine limit p → requestLine? (textOf p) ≠ none → FieldsEnd limit q →
    HeadEnd limit (p ++ 10 :: q)

theorem readAfterLine_of_none {ending : Ending} {text rest : Bytes} (h : requestLine? text = none) :
    readAfterLine limit ending text rest = (.ok .blank, rest) := by
  rw [readAfterLine, parseRequestLine?_eq, h]

theorem readAfterLine_of_some {ending : Ending} {text rest : Bytes} {m : Method} {target protocol : String}
    (h : requestLine? text = some (m, target, protocol)) :
    readAfterLine limit ending text rest
      = ((readFields limit ending .empty rest).1.map fun headers => ⟨some m, target, protocol, headers⟩,
        (readFields limit ending .empty rest).2) := by
  rw [readAfterLine, parseRequestLine?_eq, h]

/-- `readHead` stops at `HeadEnd`, with one result that is no waiting, and leaves what follows as it is. -/
theorem exists_readHead_of_headEnd (h : HeadEnd limit p) : ∃ result, result ≠ .error .stalled ∧
    ∀ rest ending, readHead limit ⟨p ++ rest, ending⟩ = (result, ⟨rest, ending⟩) := by
  unfold readHead
  -- `HeadEnd`: a garbled request line, a line that is too long, or the end of the fields.
  cases h with
  | garbled hp hnone =>
    refine ⟨.ok .blank, nofun, fun rest ending => ?_⟩
    rw [List.append_assoc, List.singleton_append, readHeadBytes_of_line (hp.readLine rest),
      readAfterLine_of_none hnone]
  | overflow hp =>
    refine ⟨.error (.lineTooLong limit), nofun, fun rest ending => ?_⟩
    rw [readHeadBytes_of_overflow (hp.readLine rest)]
  | fields hp hsome hq =>
    obtain ⟨⟨m, target, protocol⟩, hline⟩ := Option.ne_none_iff_exists'.1 hsome
    obtain ⟨result, hresult, hread⟩ := exists_readFields_of_fieldsEnd hq .empty
    refine ⟨result.map fun headers => ⟨some m, target, protocol, headers⟩, ?_, fun rest ending => ?_⟩
    · cases result with
      | ok headers => exact nofun
      | error e => exact fun he => hresult (congrArg Except.error (Except.error.inj he))
    · rw [List.append_assoc, List.cons_append, readHeadBytes_of_line (hp.readLine _), readAfterLine_of_some hline,
        hread]

/-- A peer that is silent is waited for if and only if it has not sent all up to some `HeadEnd`. -/
theorem readHead_eq_stalled_iff (limit : Nat) (bs : Bytes) :
    (readHead limit ⟨bs, .silent⟩).1 = .error .stalled ↔ ¬ ∃ p, HeadEnd limit p ∧ p <+: bs := by
  constructor
  · rintro hstalled ⟨p, hp, rest, rfl⟩
    obtain ⟨result, hresult, hread⟩ := exists_readHead_of_headEnd hp
    exact hresult (by rw [← hstalled, hread])
  · intro hnone
    change (readHeadBytes limit .silent bs).1 = _
    -- Where the request line ends, the fields go on or stall; each end would be a `HeadEnd`.
    rcases line_cases limit bs with ⟨p, rest, hp, rfl⟩ | ⟨p, hp, hprefix⟩ | hp
    · rw [readHeadBytes_of_line (hp.readLine rest)]
      cases hline : requestLine? (textOf p) with
      | none => exact absurd ⟨_, .garbled hp hline, by simp⟩ hnone
      | some line =>
        rcases fieldsEnd_or_stalled limit rest with ⟨q, hq, hprefix⟩ | hstalled
        · have hsome : requestLine? (textOf p) ≠ none := by simp [hline]
          exact absurd ⟨_, .fields hp hsome hq, by simpa using hprefix⟩ hnone
        · rw [readAfterLine_of_some hline, hstalled]
          rfl
    · exact absurd ⟨p, .overflow hp, hprefix⟩ hnone
    · rw [readHeadBytes, readLine_of_not_mem hp.noFeed hp.short]

end ServletContainer
