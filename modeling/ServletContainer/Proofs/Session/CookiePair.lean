import Mathlib.Data.List.TakeWhile
import ServletContainer.Dispatch.Serve
import ServletContainer.Proofs.Http.CookieField
import ServletContainer.Proofs.Http.HeadReading
import ServletContainer.Proofs.Session.Cookies
import ServletContainer.Proofs.Session.Identifiers

namespace ServletContainer

/-!
# The pair of a session cookie

* `IsHexText.chars` — what session ids are made of neither ends a pair nor is trimmed.
* `CookieConfig.IsPlain` — settings that name the cookie by a token and smuggle no cookie line into the head.
* `CookieConfig.IsPlain.exists_joinValues_eq` — of several values that are joined, the first pair comes first.
* `CookieConfig.IsPlain.requestedSession?_pair` — a client that sends the pair back asks for the session.
-/

/-! ### Characters -/

/-- Hexadecimal digits are neither blanks, semicolons nor quotes. -/
theorem IsHexText.chars {s : String} (h : IsHexText s) :
    ∀ c ∈ s.toList, Text.isBlank c = false ∧ c ≠ ';' ∧ c ≠ '"' := by
  have hall : ∀ c ∈ "0123456789ABCDEF".toList, Text.isBlank c = false ∧ c ≠ ';' ∧ c ≠ '"' := by
    simp [Text.isBlank]
  exact fun c hc => hall c (h c hc)

namespace CookieConfig

variable {c : CookieConfig} {contextPath : String} {secureConnection : Bool} {id : SessionId}

/-! ### The pair first -/

/-- Whether the name of `c` is a token, and its path and domain smuggle no cookie line into the head. -/
structure IsPlain (c : CookieConfig) (contextPath : String) (secureConnection : Bool) : Prop where
  name : isToken c.name = true
  lines : HidesNothing (c.attributes contextPath secureConnection)

/-- No character of a plain name is a blank, a semicolon or an equals sign, for it is a token. -/
theorem IsPlain.name_chars (h : c.IsPlain contextPath secureConnection) :
    ∀ ch ∈ c.name.toList, Text.isBlank ch = false ∧ ch ≠ ';' ∧ ch ≠ '=' := by
  intro ch hch
  have hall : ∀ ch ∈ c.name.toList, isTokenChar ch = true := by
    have hname := h.name
    rw [isToken, Bool.and_eq_true] at hname
    exact List.all_eq_true.1 hname.2
  exact isTokenChar_spec (hall ch hch)

/-- No character of the `pair` with such an id (`hid`) ends it or is trimmed. -/
theorem IsPlain.pair_chars (h : c.IsPlain contextPath secureConnection) (hid : IsHexText id) :
    ∀ ch ∈ (c.pair id).toList, ch ≠ ';' ∧ Text.isBlank ch = false := by
  intro ch hch
  rw [pair, String.toList_append, String.toList_append, List.mem_append, List.mem_append] at hch
  rcases hch with (hname | heq) | hid'
  · exact ⟨(h.name_chars ch hname).2.1, (h.name_chars ch hname).1⟩
  · have hall : ∀ ch ∈ "=".toList, ch ≠ ';' ∧ Text.isBlank ch = false := by simp [Text.isBlank]
    exact hall ch heq
  · exact ⟨(hid.chars ch hid').2.1, (hid.chars ch hid').1⟩

/-- Of the joined values for several ids (`hids`) the pair with the first one comes first, and the rest `HidesNothing`.
By induction on the ids behind it. -/
theorem IsPlain.exists_joinValues_eq (h : c.IsPlain contextPath secureConnection) {ids : List SessionId}
    (hids : ∀ id' ∈ id :: ids, IsHexText id') :
    ∃ rest, HidesNothing rest ∧ Headers.joinValues ((id :: ids).map fun id' =>
      c.headerValue id' contextPath secureConnection) = c.pair id ++ ";" ++ rest := by
  induction ids generalizing id with
  | nil =>
    have hvalue := c.headerValue_eq id contextPath secureConnection
    exact ⟨c.attributes contextPath secureConnection, h.lines, hvalue⟩
  | cons next ids ih =>
    obtain ⟨rest, hrest, hjoin⟩ := ih fun id' hid' => hids id' (List.mem_cons_of_mem _ hid')
    -- The pair of `next` goes on in the line that the attributes end with.
    have hnext : HidesNothing ("," ++ c.pair next ++ ";" ++ rest) := by
      refine HidesNothing.of_append ?_ hrest
      have hhex := hids next (by simp)
      have hpair : '\n' ∉ (c.pair next).toList := fun hmem => absurd (h.pair_chars hhex _ hmem).2 (by decide)
      simpa using hpair
    have hcomma : ∀ ch ∈ ("," ++ c.pair next ++ ";" ++ rest).toList.head?, ch ∉ "Set-Cookie:".toList := by
      intro ch hch
      have hch' : ch = ',' := by simpa using hch.symm
      rw [hch']
      decide
    refine ⟨c.attributes contextPath secureConnection ++ ("," ++ c.pair next ++ ";" ++ rest),
      h.lines.append hnext hcomma, ?_⟩
    rw [List.map_cons] at hjoin
    rw [List.map_cons, List.map_cons, Headers.joinValues, hjoin, headerValue_eq, ← String.toList_inj]
    simp

/-! ### Sent back -/

/-- A client that sends the `pair` back asks for the session with this id, where cookies count (`htracks`). -/
theorem IsPlain.requestedSession?_pair (h : c.IsPlain contextPath secureConnection) (hid : IsHexText id)
    {config : SessionConfig} (hcookie : config.cookie = c) (htracks : config.tracksCookies = true)
    (params : List (String × String)) :
    requestedSession? config (Headers.empty.append "Cookie" (c.pair id)) params = some (id, .cookie) := by
  have hvalue : cookieValue? (Headers.empty.append "Cookie" (c.pair id)) c.name = some id := by
    have htrim : Text.trim id = id :=
      Text.trim_eq_self_iff.2 (Text.trimBlanks_of_none fun ch hch => (hid.chars ch hch).1)
    have hgives : GivesCookie (c.pair id) c.name id :=
      ⟨trim_pair (fun ch hch => (h.name_chars ch hch).1) htrim, fun hmem => (h.name_chars _ hmem).2.2 rfl⟩
    have hfound : cookieValue? ⟨[] ++ ⟨"Cookie", Text.joinWith ";" ([] ++ c.pair id :: [])⟩ :: []⟩ c.name
        = some (Text.trimMark '"' (Text.trim id)) :=
      cookieValue?_of_lacks (by decide) (fun hmem => (h.pair_chars hid _ hmem).1 rfl) hgives nofun nofun
    rwa [htrim, Text.trimMark_of_none fun ch hch => (hid.chars ch hch).2.2] at hfound
  rw [requestedSession?, htracks, if_pos rfl, hcookie, hvalue]
  rfl

end CookieConfig

end ServletContainer
