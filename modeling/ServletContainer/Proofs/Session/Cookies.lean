import ServletContainer.Proofs.Text.Pieces
import ServletContainer.Session.Cookie

namespace ServletContainer

/-!
# Cookies that come back

A client sends its cookies back in pairs, among those of others and spread over several fields. The first pair with the
name of a cookie gives its value.

* `IsFirstWith`, `find?_read_eq_some_iff` — the first entry of a name.
* `GivesCookie`, `cookiePieces` — a piece of a cookie field that gives a value to a name, and the pieces of all fields.
* `cookieValue?_eq_some_iff`, `cookieValue?_eq_none_iff` — where the value of a cookie is found.
* `LacksCookie` — texts of pairs without a cookie of some name.
* `CookieConfig.cookieValue?_of_headerValue` — the pair that was handed out leads back to its id, wherever it is put.
-/

/-! ### The first of a name -/

/-- Whether `a` is the first in `l` with `P`. -/
def IsFirstWith {α : Type} (P : α → Prop) (l : List α) (a : α) : Prop :=
  P a ∧ ∃ before after, l = before ++ a :: after ∧ ∀ b ∈ before, ¬ P b

section Named

variable {α : Type} {read : α → Option (String × String)} {name : String}

/-- To read the name is to read some value of it. -/
theorem any_read_iff {a : α} : (read a).any (fun p => p.1 == name) = true ↔ ∃ v, read a = some (name, v) := by
  simp only [Option.any_eq_true, beq_iff_eq, Prod.exists]
  constructor
  · rintro ⟨_, v, ha, rfl⟩
    exact ⟨v, ha⟩
  · rintro ⟨v, ha⟩
    exact ⟨name, v, ha, rfl⟩

/-- Of the entries that `read` as a name and a value, the first one of the name is found. -/
theorem find?_read_eq_some_iff {l : List α} {v : String} :
    ((l.filterMap read).find? fun p => p.1 == name).map Prod.snd = some v ↔
      ∃ a, IsFirstWith (fun b => ∃ w, read b = some (name, w)) l a ∧ read a = some (name, v) := by
  have hfirst : ∀ a, l.find? (fun b => (read b).any fun p => p.1 == name) = some a ↔
      IsFirstWith (fun b => ∃ w, read b = some (name, w)) l a := by
    intro a
    rw [List.find?_eq_some_iff_append, any_read_iff]
    simp only [IsFirstWith, Bool.not_eq_true', Bool.eq_false_iff, ne_eq, any_read_iff]
  rw [List.find?_filterMap]
  simp only [Option.map_eq_some_iff, Option.bind_eq_some_iff, hfirst, Prod.exists]
  constructor
  · rintro ⟨_, _, ⟨a, ha, hread⟩, rfl⟩
    -- By `hread` the entry has no other name than the one that it was found by.
    obtain ⟨w, hw⟩ := ha.1
    obtain ⟨rfl, -⟩ := Prod.mk.inj (Option.some.inj (hw.symm.trans hread))
    exact ⟨a, ha, hread⟩
  · rintro ⟨a, ha, hread⟩
    exact ⟨name, v, ⟨a, ha, hread⟩, rfl⟩

/-- None is found if and only if no entry reads as the name. -/
theorem find?_read_eq_none_iff {l : List α} : ((l.filterMap read).find? fun p => p.1 == name).map Prod.snd = none ↔
    ∀ a ∈ l, ∀ v, read a ≠ some (name, v) := by
  rw [Option.map_eq_none_iff, List.find?_eq_none]
  simp only [List.mem_filterMap, Prod.forall, beq_iff_eq]
  constructor
  · intro hnone a ha v hread
    exact hnone name v ⟨a, ha, hread⟩ rfl
  · rintro hnone _ v ⟨a, ha, hread⟩ rfl
    exact hnone a ha v hread

end Named

/-! ### Where a cookie is found -/

/-- Whether `piece`, of a cookie field, gives `value` to `name`: without the blanks around it the piece is the name,
which is what stands in front of its first equals sign, and the value. -/
def GivesCookie (piece name value : String) : Prop := Text.trim piece = name ++ "=" ++ value ∧ '=' ∉ name.toList

/-- `cookiePair?` reads what `GivesCookie` says, split at the first equals sign. -/
theorem cookiePair?_eq_some_iff {piece name value : String} :
    cookiePair? piece = some (name, value) ↔ GivesCookie piece name value := by
  rw [cookiePair?, Text.cut_eq_some_iff, GivesCookie, ← String.toList_inj]
  simp

/-- The pieces of all `Cookie` fields of `h`, in order. -/
def cookiePieces (h : Headers) : List String := (h.getAll "cookie").flatMap (Text.pieces ';')

/-- `cookieValue?` searches the `cookiePieces`, and trims the value that it finds. -/
theorem cookieValue?_eq (h : Headers) (name : String) : cookieValue? h name
    = ((((cookiePieces h).filterMap cookiePair?).find? fun p => p.1 == name).map Prod.snd).map
        fun raw => Text.trimMark '"' (Text.trim raw) := by
  rw [Option.map_map]
  rfl

/-- So `cookieValue?` is the value of the first piece with the name of the cookie, from which blanks and then quotes are
trimmed. -/
theorem cookieValue?_eq_some_iff {h : Headers} {name v : String} : cookieValue? h name = some v ↔
    ∃ piece raw, IsFirstWith (fun p => ∃ w, GivesCookie p name w) (cookiePieces h) piece ∧
      GivesCookie piece name raw ∧ v = Text.trimMark '"' (Text.trim raw) := by
  rw [cookieValue?_eq, Option.map_eq_some_iff]
  simp only [find?_read_eq_some_iff, cookiePair?_eq_some_iff]
  constructor
  · rintro ⟨raw, ⟨piece, hpiece, hgives⟩, rfl⟩
    exact ⟨piece, raw, hpiece, hgives, rfl⟩
  · rintro ⟨piece, raw, hpiece, hgives, rfl⟩
    exact ⟨raw, ⟨piece, hpiece, hgives⟩, rfl⟩

/-- `cookieValue?` is none if and only if no piece gives a value to the cookie. -/
theorem cookieValue?_eq_none_iff {h : Headers} {name : String} :
    cookieValue? h name = none ↔ ∀ piece ∈ cookiePieces h, ∀ value, ¬ GivesCookie piece name value := by
  rw [cookieValue?_eq, Option.map_eq_none_iff, find?_read_eq_none_iff]
  simp only [ne_eq, cookiePair?_eq_some_iff]

/-! ### Pairs among others -/

/-- Whether no pair of `text` gives a value to the cookie `name`. -/
def LacksCookie (name text : String) : Prop := ∀ piece ∈ Text.pieces ';' text, ∀ value, ¬ GivesCookie piece name value

instance (name text : String) : Decidable (LacksCookie name text) :=
  decidable_of_iff (∀ piece ∈ Text.pieces ';' text, ¬ (cookiePair? piece).any (fun p => p.1 == name) = true) (by
    simp only [any_read_iff, cookiePair?_eq_some_iff, not_exists]
    exact Iff.rfl)

theorem cookiePieces_append (l m : List HeaderField) :
    cookiePieces ⟨l ++ m⟩ = cookiePieces ⟨l⟩ ++ cookiePieces ⟨m⟩ := by
  simp [cookiePieces, Headers.getAll, List.filter_append, List.flatMap_append]

/-- The pieces of a field for cookies (`hf`) are those of its value. -/
theorem cookiePieces_cons_of_sameName {f : HeaderField} (hf : sameName f.name "cookie" = true) (l : List HeaderField) :
    cookiePieces ⟨f :: l⟩ = Text.pieces ';' f.value ++ cookiePieces ⟨l⟩ := by
  simp [cookiePieces, Headers.getAll, hf]

/-- Fields all of which lack the cookie (`hl`) have no piece that gives it a value. -/
theorem not_givesCookie_of_fields {name : String} {l : List HeaderField}
    (hl : ∀ f ∈ l, sameName f.name "cookie" = true → LacksCookie name f.value) :
    ∀ piece ∈ cookiePieces ⟨l⟩, ∀ value, ¬ GivesCookie piece name value := by
  intro piece hpiece
  obtain ⟨text, htext, hpiece⟩ := List.mem_flatMap.1 hpiece
  obtain ⟨f, hf, rfl⟩ := List.mem_map.1 htext
  obtain ⟨hf, hname⟩ := List.mem_filter.1 hf
  exact hl f hf hname piece hpiece

/-- Texts all of which lack the cookie (`hl`) have no such piece either. -/
theorem not_givesCookie_of_texts {name : String} {l : List String} (hl : ∀ text ∈ l, LacksCookie name text) :
    ∀ piece ∈ l.flatMap (Text.pieces ';'), ∀ value, ¬ GivesCookie piece name value := by
  intro piece hpiece
  obtain ⟨text, htext, hpiece⟩ := List.mem_flatMap.1 hpiece
  exact hl text htext piece hpiece

/-- `cookieValue?` finds a piece (`hpiece`) behind fields and pieces that lack the cookie (`hbefore`, `hleft`), and
looks no further. -/
theorem cookieValue?_of_lacks {name value : String} {before after : List HeaderField} {field : String}
    {left right : List String} {piece : String} (hfield : sameName field "cookie" = true) (hmark : ';' ∉ piece.toList)
    (hpiece : GivesCookie piece name value) (hleft : ∀ text ∈ left, LacksCookie name text)
    (hbefore : ∀ f ∈ before, sameName f.name "cookie" = true → LacksCookie name f.value) :
    cookieValue? ⟨before ++ ⟨field, Text.joinWith ";" (left ++ piece :: right)⟩ :: after⟩ name
      = some (Text.trimMark '"' (Text.trim value)) := by
  have hjoined : Text.pieces ';' (Text.joinWith ";" (left ++ piece :: right))
      = left.flatMap (Text.pieces ';') ++ piece :: right.flatMap (Text.pieces ';') := by
    have hself : Text.pieces ';' piece = [piece] := by
      rw [Text.pieces, Text.fields_of_not_mem hmark, List.map_singleton, String.ofList_toList]
    have hjoin := Text.pieces_joinWith ';' (l := left ++ piece :: right) (by simp)
    rw [List.flatMap_append, List.flatMap_cons, hself] at hjoin
    exact hjoin
  -- All `cookiePieces` in front of the pair lack the cookie, in this field and in those before it.
  have hpieces : cookiePieces ⟨before ++ ⟨field, Text.joinWith ";" (left ++ piece :: right)⟩ :: after⟩
      = (cookiePieces ⟨before⟩ ++ left.flatMap (Text.pieces ';'))
        ++ piece :: (right.flatMap (Text.pieces ';') ++ cookiePieces ⟨after⟩) := by
    rw [cookiePieces_append, cookiePieces_cons_of_sameName hfield, hjoined]
    simp
  refine cookieValue?_eq_some_iff.2 ⟨piece, value, ⟨⟨value, hpiece⟩, _, _, hpieces, fun p hp => ?_⟩, hpiece, rfl⟩
  rw [not_exists]
  rcases List.mem_append.1 hp with hp | hp
  · exact not_givesCookie_of_fields hbefore p hp
  · exact not_givesCookie_of_texts hleft p hp

/-! ### The pair that was handed out -/

namespace CookieConfig

variable {c : CookieConfig} {id : String}

/-- What follows the `pair` and its semicolon. -/
def attributes (c : CookieConfig) (contextPath : String) (secureConnection : Bool) : String :=
  " Path=" ++ c.pathFor contextPath ++ attributeText "Domain" c.domain
    ++ attributeText "Max-Age" (c.maxAge.map toString) ++ flagText "Secure" (c.secure || secureConnection)
    ++ flagText "HttpOnly" c.httpOnly

/-- `headerValue` is the `pair`, a semicolon and the `attributes`. -/
theorem headerValue_eq (c : CookieConfig) (id contextPath : String) (secureConnection : Bool) :
    c.headerValue id contextPath secureConnection
      = c.pair id ++ ";" ++ c.attributes contextPath secureConnection := by
  rw [← String.toList_inj]
  simp [headerValue, attributes]

/-- The `pair` starts as the name does (`hblank`), or with the equals sign, and ends as the id does (`hends`), or with
that sign; so nothing is trimmed. -/
theorem trim_pair (hblank : ∀ ch ∈ c.name.toList, Text.isBlank ch = false) (hends : Text.trim id = id) :
    Text.trim (c.pair id) = c.pair id := by
  refine Text.trim_eq_self_iff.2 (Text.trimBlanks_eq_self_iff.2 ⟨fun ch hch => ?_, fun ch hch => ?_⟩)
  · -- The first character is that of `c.name`, or the equals sign of an empty name.
    cases hn : c.name.toList with
    | nil =>
      obtain rfl : ch = '=' := by simpa [pair, hn] using hch.symm
      decide
    | cons d r =>
      obtain rfl : ch = d := by simpa [pair, hn] using hch.symm
      exact hblank ch (by simp [hn])
  · -- The last one is that of `id`, or the equals sign before an empty one.
    obtain ⟨-, hlast⟩ := Text.trimBlanks_eq_self_iff.1 (Text.trim_eq_self_iff.1 hends)
    rcases List.eq_nil_or_concat id.toList with hnil | ⟨r, d, hconcat⟩
    · obtain rfl : ch = '=' := by simpa [pair, hnil] using hch.symm
      decide
    · rw [List.concat_eq_append] at hconcat
      have hsnoc : (c.pair id).toList = (c.name.toList ++ '=' :: r) ++ [d] := by simp [pair, hconcat]
      rw [hsnoc, List.getLast?_concat] at hch
      obtain rfl := Option.some.inj hch
      exact hlast d (by simp [hconcat])

/-- **The cookie that comes back.** Take any settings that name the cookie by a text without equals signs, semicolons and
blanks, and any id without semicolons and quotes that neither starts nor ends with a blank. In front of its first
semicolon, the value that hands the id out is a pair that leads back to the id:

* in whichever cookie field the pair stands, among whatever pairs and fields that give no value to this cookie, and with
  blanks around it or not, the value that is read is the id;
* where no pair of any cookie field gives a value to this cookie, none is read. -/
theorem cookieValue?_of_headerValue (c : CookieConfig) (id contextPath : String) (secureConnection : Bool)
    (hname : Avoids ['=', ';'] c.name) (hblank : ∀ ch ∈ c.name.toList, Text.isBlank ch = false)
    (hid : Avoids [';', '"'] id) (hends : Text.trim id = id) :
    ∃ pair, (∃ rest, c.headerValue id contextPath secureConnection = pair ++ ";" ++ rest) ∧ ';' ∉ pair.toList ∧
      (∀ (before after : List HeaderField) (field : String) (left right : List String) (lead trail : String),
        sameName field "cookie" = true →
        (∀ ch ∈ (lead ++ trail).toList, Text.isBlank ch = true) →
        (∀ text ∈ left ++ right, LacksCookie c.name text) →
        (∀ f ∈ before ++ after, sameName f.name "cookie" = true → LacksCookie c.name f.value) →
        cookieValue? ⟨before ++ ⟨field, Text.joinWith ";" (left ++ (lead ++ pair ++ trail) :: right)⟩ :: after⟩ c.name
          = some id) ∧
      ∀ h : Headers, (∀ f ∈ h.fields, sameName f.name "cookie" = true → LacksCookie c.name f.value) →
        cookieValue? h c.name = none := by
  have hpair : ';' ∉ (c.pair id).toList := by
    simp [pair, hname.not_mem (c := ';') (by simp), hid.not_mem (c := ';') (by simp)]
  refine ⟨c.pair id, ⟨_, c.headerValue_eq id contextPath secureConnection⟩, hpair, ?_, fun h hlacks => ?_⟩
  · intro before after field left right lead trail hfield hblanks htexts hfields
    simp only [String.toList_append, List.mem_append] at hblanks htexts hfields
    have hgives : GivesCookie (lead ++ c.pair id ++ trail) c.name id := by
      refine ⟨Text.trim_append (fun ch hch => hblanks ch (.inl hch)) (fun ch hch => hblanks ch (.inr hch)) ?_, ?_⟩
      · exact trim_pair hblank hends
      · exact hname.not_mem (by simp)
    -- `';'` is no blank, so the pair is one piece together with `lead` and `trail`.
    have hmark : ';' ∉ (lead ++ c.pair id ++ trail).toList := by
      have hnot : Text.isBlank ';' = false := by decide
      have houter : ¬ (';' ∈ lead.toList ∨ ';' ∈ trail.toList) := fun hmem => by simp [hblanks _ hmem] at hnot
      rw [not_or] at houter
      simp [houter, hpair]
    rw [cookieValue?_of_lacks hfield hmark hgives (fun text ht => htexts text (.inl ht))
      fun f hf => hfields f (.inl hf), hends, Text.trimMark_of_none]
    exact fun d hd hquote => hid d hd (by simp [hquote])
  · exact cookieValue?_eq_none_iff.2 (not_givesCookie_of_fields hlacks)

/-- An id with a blank and an equals sign within, sent back in the second of two fields, behind a pair with a longer name,
a piece without a sign and an empty one. -/
theorem cookieValue?_of_headerValue_among :
    CookieConfig.standard.headerValue "a =b" "/shop" true = "JSESSIONID=a =b; Path=/shop; Secure; HttpOnly" ∧
    cookieValue? ⟨[⟨"Cookie", "JSESSIONID; x=JSESSIONID=1"⟩, ⟨"Host", "JSESSIONID=2"⟩,
      ⟨"COOKIE", "JSESSIONID2=3;; JSESSIONID=a =b ;y=4"⟩]⟩ "JSESSIONID" = some "a =b" := by
  have hvalue : CookieConfig.standard.headerValue "a =b" "/shop" true
      = "JSESSIONID=a =b; Path=/shop; Secure; HttpOnly" := by decide +kernel
  obtain ⟨pair, ⟨rest, hrest⟩, hmark, hfound, -⟩ := cookieValue?_of_headerValue .standard "a =b" "/shop" true
    (by decide +kernel) (by simp [standard, Text.isBlank]) (by decide +kernel) (by decide +kernel)
  -- The theorem only says that the pair ends at the first semicolon, which is found by cutting there.
  have hpair : pair = "JSESSIONID=a =b" := by
    have hcut : Text.splitOnce ';' (CookieConfig.standard.headerValue "a =b" "/shop" true).toList
        = some (pair.toList, rest.toList) :=
      Text.splitOnce_eq_some_iff.2 ⟨by simp [hrest], hmark⟩
    have hfirst : (Text.splitOnce ';' (CookieConfig.standard.headerValue "a =b" "/shop" true).toList).map Prod.fst
        = some "JSESSIONID=a =b".toList := by decide +kernel
    rw [hcut] at hfirst
    exact String.toList_inj.1 (Option.some.inj hfirst)
  subst hpair
  refine ⟨hvalue, ?_⟩
  exact hfound [⟨"Cookie", "JSESSIONID; x=JSESSIONID=1"⟩, ⟨"Host", "JSESSIONID=2"⟩] [] "COOKIE" ["JSESSIONID2=3", ""]
    ["y=4"] " " " " (by decide +kernel) (by simp [Text.isBlank]) (by decide +kernel) (by decide +kernel)

end CookieConfig

end ServletContainer
