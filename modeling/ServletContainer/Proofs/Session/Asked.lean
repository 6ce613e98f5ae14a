import ServletContainer.Dispatch.Serve
import ServletContainer.Proofs.Session.Cookies
import ServletContainer.Proofs.Session.Targets

namespace ServletContainer

/-!
# The session that is asked for

A client asks for a session by a cookie, or else by a parameter of the last segment of the path. Where ids do not travel
in one of these ways, it does not count.

* `GivesParameter` — a piece that gives a value to a name.
* `parameter?_eq_some_iff`, `IsLastSegment.parameters_eq` — these are the parameters that are taken off a path.
* `Asks`, `asks_iff` — what the pieces of the cookie fields and those of the last segment ask for.
-/

/-! ### Parameters of the last segment -/

/-- Whether `piece`, behind a semicolon, gives `value` to `name`, which is what stands in front of its first equals
sign. A piece without the sign is a name with an empty value, unless it is empty itself. -/
def GivesParameter (piece name value : String) : Prop :=
  '=' ∉ name.toList ∧ (piece = name ++ "=" ++ value ∨ piece = name ∧ piece ≠ "" ∧ value = "")

/-- The parameter that `piece` gives, by `parameterOf`, if it gives one. -/
def parameter? (piece : String) : Option (String × String) :=
  if piece = "" then none else some (parameterOf piece.toList)

/-- `parameter?` reads what `GivesParameter` says, split at the first equals sign. -/
theorem parameter?_eq_some_iff {piece name value : String} :
    parameter? piece = some (name, value) ↔ GivesParameter piece name value := by
  rw [parameter?, GivesParameter]
  by_cases hempty : piece = ""
  · rw [if_pos hempty, hempty]
    constructor
    · intro hnone
      cases hnone
    · rintro ⟨-, htext | ⟨-, hne, -⟩⟩
      · have hlist := congrArg String.toList htext
        simp at hlist
      · exact absurd rfl hne
  · rw [if_neg hempty, Option.some_inj, parameterOf]
    cases hcut : Text.splitOnce '=' piece.toList with
    | none =>
      have hmark := Text.splitOnce_eq_none_iff.1 hcut
      simp only [String.ofList_toList, Prod.mk.injEq]
      constructor
      · rintro ⟨rfl, rfl⟩
        exact ⟨hmark, .inr ⟨rfl, hempty, rfl⟩⟩
      · rintro ⟨-, rfl | ⟨rfl, -, rfl⟩⟩
        · -- The sign would be in the piece.
          simp at hmark
        · exact ⟨rfl, rfl⟩
    | some p =>
      obtain ⟨htext, hmark⟩ := Text.splitOnce_eq_some_iff.1 hcut
      simp only [Prod.mk.injEq]
      constructor
      · rintro ⟨rfl, rfl⟩
        exact ⟨by simpa using hmark, .inl (String.toList_inj.1 (by simp [htext]))⟩
      · rintro ⟨hname, rfl | ⟨rfl, -, -⟩⟩
        · have hcut' : Text.splitOnce '=' (name ++ "=" ++ value).toList = some (name.toList, value.toList) :=
            Text.splitOnce_eq_some_iff.2 ⟨by simp, hname⟩
          obtain rfl := Option.some.inj (hcut.symm.trans hcut')
          exact ⟨String.ofList_toList, String.ofList_toList⟩
        · simp [htext] at hname

/-- The parameters of a segment are those of the pieces behind its first semicolon. -/
theorem segmentParameters_eq (segment : String) :
    segmentParameters segment.toList = (Text.pieces ';' segment).tail.filterMap parameter? := by
  rw [segmentParameters, Text.pieces, ← List.map_tail, List.filterMap_map, ← List.filterMap_eq_map,
    List.filterMap_filter]
  refine List.filterMap_congr fun piece _ => ?_
  cases piece <;> simp [parameter?, ← String.toList_inj]

/-- The parameters that `stripPathParameters` takes off a path are those of its last segment (`h`). -/
theorem IsLastSegment.parameters_eq {path last : String} (h : IsLastSegment path last) :
    (stripPathParameters path).2 = (Text.pieces ';' last).tail.filterMap parameter? := by
  rw [← segmentParameters_eq]
  change segmentParameters ((Text.fields '/' path.toList).getLastD []) = _
  obtain ⟨hslash, rfl | ⟨front, rfl⟩⟩ := h
  · rw [Text.fields_of_not_mem hslash]
    rfl
  · have htext : (front ++ "/" ++ last).toList = front.toList ++ '/' :: last.toList := by simp
    rw [htext, Text.fields_append_cons, Text.fields_of_not_mem hslash, List.getLastD_concat]

/-! ### Cookie or URL -/

/-- What the pieces of `cookies`, and those of `params` behind the semicolons of the last segment, ask for: the first
cookie of the configured name if ids travel by cookie, else the first parameter of the configured name if they travel by
URL. -/
inductive Asks (config : SessionConfig) (cookies params : List String) : Option (String × SessionIdSource) → Prop
  | cookie {piece raw} : .cookie ∈ config.trackingModes →
    IsFirstWith (fun p => ∃ v, GivesCookie p config.cookie.name v) cookies piece →
    GivesCookie piece config.cookie.name raw →
    Asks config cookies params (some (Text.trimMark '"' (Text.trim raw), .cookie))
  | url {piece value} :
    (.cookie ∈ config.trackingModes → ∀ p ∈ cookies, ∀ v, ¬ GivesCookie p config.cookie.name v) →
    .url ∈ config.trackingModes →
    IsFirstWith (fun p => ∃ v, GivesParameter p config.urlParameter v) params piece →
    GivesParameter piece config.urlParameter value → Asks config cookies params (some (value, .url))
  | nothing :
    (.cookie ∈ config.trackingModes → ∀ p ∈ cookies, ∀ v, ¬ GivesCookie p config.cookie.name v) →
    (.url ∈ config.trackingModes → ∀ p ∈ params, ∀ v, ¬ GivesParameter p config.urlParameter v) →
    Asks config cookies params none

section Asks

variable {config : SessionConfig} {h : Headers} {params : List String}

/-- The `cookieValue?` of the configured name, where cookies count. -/
def askedByCookie (config : SessionConfig) (h : Headers) : Option String :=
  if config.tracksCookies then cookieValue? h config.cookie.name else none

/-- The value of the parameter of the configured name, where parameters count. -/
def askedByUrl (config : SessionConfig) (params : List String) : Option String :=
  if config.tracksUrl then ((params.filterMap parameter?).find? fun p => p.1 == config.urlParameter).map Prod.snd
  else none

/-- `requestedSession?` asks the cookies, and then the parameters. -/
theorem requestedSession?_eq (config : SessionConfig) (h : Headers) (params : List String) :
    requestedSession? config h (params.filterMap parameter?)
      = ((askedByCookie config h).map fun id => (id, .cookie)).or
          ((askedByUrl config params).map fun id => (id, .url)) := by
  rw [requestedSession?, askedByCookie, askedByUrl]
  congr 1
  split
  · rw [Option.map_map]
    rfl
  · rfl

/-- `askedByCookie` gives the value of the first cookie of the name, trimmed, where cookies count. -/
theorem askedByCookie_eq_some_iff {id : String} : askedByCookie config h = some id ↔
    .cookie ∈ config.trackingModes ∧ ∃ piece raw,
      IsFirstWith (fun p => ∃ v, GivesCookie p config.cookie.name v) (cookiePieces h) piece ∧
        GivesCookie piece config.cookie.name raw ∧ id = Text.trimMark '"' (Text.trim raw) := by
  rw [askedByCookie, Option.ite_none_right_eq_some, cookieValue?_eq_some_iff, SessionConfig.tracksCookies,
    List.contains_iff_mem]

/-- `askedByCookie` gives none where cookies do not count, or none has the name. -/
theorem askedByCookie_eq_none_iff : askedByCookie config h = none ↔
    (.cookie ∈ config.trackingModes → ∀ p ∈ cookiePieces h, ∀ v, ¬ GivesCookie p config.cookie.name v) := by
  rw [askedByCookie, ite_eq_right_iff, cookieValue?_eq_none_iff, SessionConfig.tracksCookies, List.contains_iff_mem]

/-- `askedByUrl` gives the value of the first parameter of the name, where parameters count. -/
theorem askedByUrl_eq_some_iff {id : String} : askedByUrl config params = some id ↔
    .url ∈ config.trackingModes ∧ ∃ piece,
      IsFirstWith (fun p => ∃ v, GivesParameter p config.urlParameter v) params piece ∧
        GivesParameter piece config.urlParameter id := by
  rw [askedByUrl, Option.ite_none_right_eq_some, find?_read_eq_some_iff, SessionConfig.tracksUrl,
    List.contains_iff_mem]
  simp only [parameter?_eq_some_iff]

/-- `askedByUrl` gives none where parameters do not count, or none has the name. -/
theorem askedByUrl_eq_none_iff : askedByUrl config params = none ↔
    (.url ∈ config.trackingModes → ∀ p ∈ params, ∀ v, ¬ GivesParameter p config.urlParameter v) := by
  rw [askedByUrl, ite_eq_right_iff, find?_read_eq_none_iff, SessionConfig.tracksUrl, List.contains_iff_mem]
  simp only [ne_eq, parameter?_eq_some_iff]

/-- What the pieces ask for is what `requestedSession?` finds. -/
theorem asks_iff {asked : Option (String × SessionIdSource)} :
    Asks config (cookiePieces h) params asked ↔ requestedSession? config h (params.filterMap parameter?) = asked := by
  rw [requestedSession?_eq]
  constructor
  · intro hasks
    cases hasks with
    | cookie hmode hpiece hgives =>
      rw [askedByCookie_eq_some_iff.2 ⟨hmode, _, _, hpiece, hgives, rfl⟩]
      rfl
    | url hnone hmode hpiece hgives =>
      rw [askedByCookie_eq_none_iff.2 hnone, askedByUrl_eq_some_iff.2 ⟨hmode, _, hpiece, hgives⟩]
      rfl
    | nothing hnone hnone' =>
      rw [askedByCookie_eq_none_iff.2 hnone, askedByUrl_eq_none_iff.2 hnone']
      rfl
  · rintro rfl
    cases hcookie : askedByCookie config h with
    | some id =>
      obtain ⟨hmode, piece, raw, hpiece, hgives, rfl⟩ := askedByCookie_eq_some_iff.1 hcookie
      exact .cookie hmode hpiece hgives
    | none =>
      -- Only where `askedByCookie` is `none` do parameters count.
      have hnone := askedByCookie_eq_none_iff.1 hcookie
      cases hurl : askedByUrl config params with
      | some id =>
        obtain ⟨hmode, piece, hpiece, hgives⟩ := askedByUrl_eq_some_iff.1 hurl
        exact .url hnone hmode hpiece hgives
      | none => exact .nothing hnone (askedByUrl_eq_none_iff.1 hurl)

end Asks

end ServletContainer
