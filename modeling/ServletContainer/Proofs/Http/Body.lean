import ServletContainer.Http.Request
import ServletContainer.Proofs.Text.Numeral

namespace ServletContainer

/-!
# Reading a body of declared length

* `Source.take_eq_ok_iff` — taking succeeds where there are so many bytes, and leaves those behind them.
* `Request.DeliversBody` — what reading a body of `n` bytes is to give: a refusal where the limit is passed, else the
  next `n` bytes and nothing behind them, else the failure of an input that is too short.
* `Request.readBody_delivers_iff` — this is what the declared length gives for every number that a 64-bit word holds; a
  longer numeral declares nothing.
-/

/-! ### Taking bytes -/

namespace Source

variable {n : Nat} {s : Source}

/-- `take n` delivers `data` if and only if these are the next `n` bytes, and leaves what is behind them. -/
theorem take_eq_ok_iff {data : Bytes} {after : Source} :
    s.take n = (.ok data, after) ↔ data.length = n ∧ s = { after with unread := data ++ after.unread } := by
  rw [take]
  constructor
  · intro h
    split at h
    · obtain ⟨hdata, rfl⟩ := Prod.mk.inj h
      obtain rfl := Except.ok.inj hdata
      refine ⟨by simpa, ?_⟩
      rw [List.take_append_drop]
    · exact absurd (Prod.mk.inj h).1 nofun
  · rintro ⟨rfl, rfl⟩
    simp

/-- It fails if and only if there are less than `n`; the error tells whether the input ends there or breaks off. -/
theorem take_eq_error_iff {e : IoError} :
    (s.take n).1 = .error e ↔ s.unread.length < n ∧ e = if s.ending = .failed then .sourceFailed else .earlyEnd := by
  rw [take]
  split
  next hlong => simp [hlong]
  next hshort => simp [not_le.1 hshort, eq_comm]

end Source

namespace Request

/-- What is to come of reading a body of `n` bytes from an input under a limit: the answer, and what is left. -/
structure DeliversBody (n limit : Nat) (source : Source) (answer : Except IoError Bytes × Option Source) : Prop where
  /-- A body is refused as invalid if and only if it is longer than the limit. -/
  refused_iff : (∃ e, answer.1 = .error e ∧ e.kind = .invalidData) ↔ limit < n
  /-- The refusal tells both numbers and leaves the input as it is. -/
  refused : limit < n → answer = (.error (.bodyTooLong n limit), some source)
  /-- What is delivered are the next `n` bytes, and all behind them is left. -/
  delivered_iff : ∀ data after, answer = (.ok data, some after) ↔
    n ≤ limit ∧ data.length = n ∧ source = { after with unread := data ++ after.unread }
  /-- Where the peer has ended its side, the end comes early if and only if there are fewer bytes. -/
  ended_iff : source.ending = .closed →
    ((∃ e, answer.1 = .error e ∧ e.kind = .unexpectedEof) ↔ n ≤ limit ∧ source.unread.length < n)
  /-- Where the connection breaks, it breaks within the body if and only if there are fewer bytes. -/
  broken_iff : source.ending = .failed →
    ((∃ e, answer.1 = .error e ∧ e.kind = .connectionReset) ↔ n ≤ limit ∧ source.unread.length < n)

variable {r : Request} {n : Nat}

/-- If the first `Content-Length` is a numeral of `n`, blanks around it aside, `contentLength?` is `n` where this fits
64 bits, and none otherwise. -/
theorem contentLength?_of_isNumeralOf {text : String} (htext : r.head.headers.get? "content-length" = some text)
    (hn : Text.IsNumeralOf n (Text.trim text).toList) :
    r.contentLength? = if n ≤ Text.max64 then some n else none := by
  rw [contentLength?, htext, Option.bind_eq_bind, Option.bind_some, Text.readNumeral_of_isNumeralOf hn]
  split <;> rfl

/-- A body longer than `limit` is refused, and nothing is read. -/
theorem readBody_of_lt {limit : Nat} (hlength : r.contentLength?.getD 0 = n) (hlimit : limit < n)
    (body : Option Source) : r.readBody limit body = (.error (.bodyTooLong n limit), body) := by
  simp only [readBody, hlength, if_pos hlimit]

/-- A body no longer than `limit` is what `take` gives. -/
theorem readBody_of_le {limit : Nat} (hlength : r.contentLength?.getD 0 = n) (hlimit : n ≤ limit) (source : Source) :
    r.readBody limit (some source) = ((source.take n).1, some (source.take n).2) := by
  simp only [readBody, hlength, if_neg (not_lt.2 hlimit)]

/-- So `readBody` of a body of `n` bytes is as `DeliversBody` says. -/
theorem deliversBody_readBody (hlength : r.contentLength?.getD 0 = n) (limit : Nat) (source : Source) :
    DeliversBody n limit source (r.readBody limit (some source)) := by
  rcases Nat.lt_or_ge limit n with hlimit | hlimit
  · rw [readBody_of_lt hlength hlimit]
    have hnot := not_le.2 hlimit
    -- The length is above the limit: refused, and nothing else can be said of it.
    constructor <;> simp [hlimit, hnot, IoError.kind]
  · rw [readBody_of_le hlength hlimit]
    -- All the rest is what `take` says of `n` bytes.
    have hnot := not_lt.2 hlimit
    constructor
    case refused_iff =>
      simp only [Source.take_eq_error_iff, hnot, iff_false]
      rintro ⟨e, ⟨-, rfl⟩, hkind⟩
      split at hkind <;> exact absurd hkind (by decide)
    case refused => exact fun hlt => absurd hlt hnot
    case delivered_iff =>
      intro data after
      rw [and_iff_right hlimit, ← Source.take_eq_ok_iff, Prod.ext_iff, Prod.ext_iff, Option.some_inj]
    case ended_iff =>
      intro hending
      simp [Source.take_eq_error_iff, hending, hlimit, IoError.kind]
    case broken_iff =>
      intro hending
      simp [Source.take_eq_error_iff, hending, hlimit, IoError.kind]

/-- **The declared length.** Let the first `Content-Length` be a numeral of `n`, padded with blanks and zeros or not:

* what `readBody` gives is as `DeliversBody` says for `n` if and only if a 64-bit word holds the number;
* a larger number declares nothing: no byte is read, under whatever limit, and the input stays as it is. -/
theorem readBody_delivers_iff {text : String} (htext : r.head.headers.get? "content-length" = some text)
    (hn : Text.IsNumeralOf n (Text.trim text).toList) (limit : Nat) (source : Source) :
    (DeliversBody n limit source (r.readBody limit (some source)) ↔ n ≤ Text.max64) ∧
    (Text.max64 < n → r.readBody limit (some source) = (.ok [], some source)) := by
  have hlength := contentLength?_of_isNumeralOf htext hn
  have hlarge (hmax : Text.max64 < n) : r.readBody limit (some source) = (.ok [], some source) := by
    rw [if_neg (not_le.2 hmax)] at hlength
    rw [readBody_of_le (n := 0) (by rw [hlength]; rfl) (Nat.zero_le limit)]
    rfl
  refine ⟨⟨fun hdelivers => ?_, fun hmax => ?_⟩, hlarge⟩
  · -- `[]` is not the body that a large number declares.
    by_contra hmax
    rw [hlarge (not_le.1 hmax)] at hdelivers
    rcases Nat.lt_or_ge limit n with hlimit | hlimit
    · exact absurd (Prod.mk.inj (hdelivers.refused hlimit)).1 nofun
    · have hempty := ((hdelivers.delivered_iff [] source).1 rfl).2.1
      rw [← hempty] at hmax
      exact hmax (Nat.zero_le _)
  · exact deliversBody_readBody (by rw [hlength, if_pos hmax]; rfl) limit source

/-! ### Two declared lengths -/

/-- A request whose `Content-Length` is `text`. -/
def declaring (text : String) : Request := .ofHead { RequestHead.blank with
  headers := Headers.empty.append "Content-Length" text }

/-- Blanks and zeros in front do not count: the five bytes are read, and all behind them is left. -/
theorem readBody_delivers_iff_padded :
    let r := declaring " 005 "
    let source : Source := ⟨Text.Utf8.encode "hello, world", .closed⟩
    r.head.headers.get? "content-length" = some " 005 " ∧ Text.IsNumeralOf 5 (Text.trim " 005 ").toList ∧
    DeliversBody 5 10 source (r.readBody 10 (some source)) ∧
    r.readBody 10 (some source) = (.ok (Text.Utf8.encode "hello"), some ⟨Text.Utf8.encode ", world", .closed⟩) := by
  intro r source
  have htext : r.head.headers.get? "content-length" = some " 005 " := by decide +kernel
  have hn : Text.IsNumeralOf 5 (Text.trim " 005 ").toList :=
    ⟨by decide +kernel, List.all_eq_true.1 (by decide +kernel), by decide +kernel⟩
  have hdelivers := ((readBody_delivers_iff htext hn 10 source).1).2 (by decide)
  exact ⟨htext, hn, hdelivers, (hdelivers.delivered_iff _ _).2 ⟨by decide, by decide +kernel, by decide +kernel⟩⟩

/-- The first number that no 64-bit word holds passes every limit that one can set, and is not refused. -/
theorem not_deliversBody_max64_succ :
    let r := declaring "18446744073709551616"
    let source : Source := ⟨Text.Utf8.encode "hello", .closed⟩
    r.head.headers.get? "content-length" = some "18446744073709551616" ∧
    Text.IsNumeralOf (Text.max64 + 1) (Text.trim "18446744073709551616").toList ∧
    r.readBody 10 (some source) = (.ok [], some source) ∧
    ¬ DeliversBody (Text.max64 + 1) 10 source (r.readBody 10 (some source)) := by
  intro r source
  have hread : r.readBody 10 (some source) = (.ok [], some source) := by decide +kernel
  have hn : Text.IsNumeralOf (Text.max64 + 1) (Text.trim "18446744073709551616").toList :=
    ⟨by decide +kernel, List.all_eq_true.1 (by decide +kernel), by decide +kernel⟩
  refine ⟨by decide +kernel, hn, hread, fun hdelivers => ?_⟩
  rw [hread] at hdelivers
  exact absurd (Prod.mk.inj (hdelivers.refused (by decide))).1 nofun

end Request

end ServletContainer
