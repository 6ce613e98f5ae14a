import ServletContainer.Proofs.Http.Folding
import ServletContainer.Proofs.Http.RoundTrip
import ServletContainer.Proofs.Security.Denial
import ServletContainer.Proofs.Security.Protection
import ServletContainer.Proofs.Text.Base64

namespace ServletContainer

/-!
# Whom credentials let through

A guard by credentials and a table of users, told from the side of the client that writes the credentials.

* `Headers.Carries` — fields that carry a user name and a password; `credentials?_eq_some_iff`: these are read.
* `Headers.carries_basic_iff` — what a client sends for a user and a password is read as just these.
* `IdentityStore.Identifies` — fields that carry the credentials of a user in the table.
* `BasicAuth.check?_decides` — what is decided about any request: whom the first constraint on its path lets through,
  what everybody else is answered, and that turning somebody away changes nothing.
-/

/-! ### Credentials in a field -/

/-- The text that stands for `user` and `password`. -/
def credentialsText (user password : String) : String :=
  String.ofList (Text.Base64.encode (Text.Utf8.encode (user ++ ":" ++ password)))

/-- Whether fields carry a user name and a password. The first value for authorization is then, apart from blanks at
its ends, the word `Basic` in any case, a space and, apart from blanks, the text for the two; the user name ends before
the first colon. -/
def Headers.Carries (h : Headers) (user password : String) : Prop :=
  ∃ field scheme encoded, h.get? "Authorization" = some field ∧ Text.trim field = scheme ++ " " ++ encoded ∧
    sameName scheme "Basic" = true ∧ Text.trim encoded = credentialsText user password ∧ ':' ∉ user.toList

namespace Text

/-- `trim` takes nothing from a text without blanks (`hs`). -/
theorem trim_of_none {s : String} (hs : ∀ c ∈ s.toList, isBlank c = false) : trim s = s := by
  rw [trim, trimBlanks_of_none hs, String.ofList_toList]

/-- No digit of `encode` is blank, and neither is padding. -/
theorem Base64.isBlank_of_mem_encode {s : List UInt8} {c : Char} (h : c ∈ encode s) : isBlank c = false := by
  rcases mem_encode h with rfl | ⟨n, hn, rfl⟩
  · rfl
  · have hall : ∀ m < 64, isBlank (digit m) = false := by decide
    exact hall n hn

end Text

/-- So `credentialsText` has no blanks. -/
theorem isBlank_of_mem_credentialsText {user password : String} {c : Char}
    (h : c ∈ (credentialsText user password).toList) : Text.isBlank c = false := by
  rw [credentialsText, String.toList_ofList] at h
  exact Text.Base64.isBlank_of_mem_encode h

/-- `credentialsText` is not empty, for there is always a colon in it. -/
theorem credentialsText_ne_empty (user password : String) : (credentialsText user password).toList ≠ [] := by
  intro hempty
  -- `":"` has a byte.
  have hnone : Text.Utf8.encode (user ++ ":" ++ password) = [] := by
    rw [credentialsText, String.toList_ofList] at hempty
    exact Text.Base64.encode_eq_nil_iff.1 hempty
  rw [Text.Utf8.encode_append, Text.Utf8.encode_append] at hnone
  have hcolon : Text.Utf8.encode ":" = [] := (List.append_eq_nil_iff.1 (List.append_eq_nil_iff.1 hnone).1).2
  cases hcolon

/-- `decodeCredentials?` reads the user name and the password from `credentialsText` of them, and from no other text. -/
theorem decodeCredentials?_eq_some_iff {encoded user password : String} :
    decodeCredentials? encoded.toList = some (user, password) ↔
      encoded = credentialsText user password ∧ ':' ∉ user.toList := by
  simp only [decodeCredentials?, Option.bind_eq_bind, Option.bind_eq_some_iff, Text.Base64.decode?_eq_some_iff,
    Text.Utf8.decode?_eq_some_iff, Text.cut_eq_some_iff, credentialsText, ← String.toList_inj, String.toList_ofList]
  constructor
  · rintro ⟨bytes, hencoded, text, rfl, htext, hcolon⟩
    have : text = user ++ ":" ++ password := by simp [← String.toList_inj, htext]
    exact ⟨this ▸ hencoded, hcolon⟩
  · rintro ⟨hencoded, hcolon⟩
    exact ⟨_, hencoded, _, rfl, by simp, hcolon⟩

/-- No spelling of the word `Basic` has a space. -/
theorem space_not_mem_of_sameName {scheme : String} (h : sameName scheme "Basic" = true) : ' ' ∉ scheme.toList := by
  intro hspace
  have hlower : scheme.toList.map Char.toLower = "Basic".toList.map Char.toLower := by simpa [sameName] using h
  have hmem : Char.toLower ' ' ∈ "Basic".toList.map Char.toLower := hlower ▸ List.mem_map_of_mem hspace
  exact absurd hmem (by decide)

/-- `get?` does not tell spellings apart. -/
theorem Headers.get?_of_sameName {m n : String} (h : Headers) (hmn : sameName m n = true) : h.get? m = h.get? n := by
  simp only [get?, getAll, Headers.sameName_congr hmn]

/-- **Reading credentials.** `credentials?` gives the user name and the password that the fields carry, and none where
they carry none. -/
theorem credentials?_eq_some_iff {h : Headers} {user password : String} :
    credentials? h = some (user, password) ↔ h.Carries user password := by
  have hget : h.get? "authorization" = h.get? "Authorization" := h.get?_of_sameName (by decide)
  have hsame : ∀ scheme, sameName scheme "basic" = sameName scheme "Basic" := Headers.sameName_congr (by decide)
  simp only [credentials?, Option.bind_eq_bind, Option.bind_eq_some_iff, hget, hsame, Prod.exists,
    Option.ite_none_right_eq_some, decodeCredentials?_eq_some_iff, Text.cut_eq_some_iff, Headers.Carries]
  constructor
  · rintro ⟨field, hfield, scheme, encoded, ⟨hcut, -⟩, hscheme, hencoded, hcolon⟩
    exact ⟨field, scheme, encoded, hfield, by simp [← String.toList_inj, hcut], hscheme, hencoded, hcolon⟩
  · rintro ⟨field, scheme, encoded, hfield, htrim, hscheme, hencoded, hcolon⟩
    exact ⟨field, hfield, scheme, encoded, ⟨by simp [htrim], space_not_mem_of_sameName hscheme⟩, hscheme, hencoded,
      hcolon⟩

theorem Headers.Carries.unique {h : Headers} {user password other secret : String} (hc : h.Carries user password)
    (ho : h.Carries other secret) : other = user ∧ secret = password := by
  have := (credentials?_eq_some_iff.2 ho).symm.trans (credentials?_eq_some_iff.2 hc)
  simpa using this

/-- **Sending credentials.** What a client sends (`hfield`) for a user name without a colon (`hcolon`) and a password
carries just these. -/
theorem Headers.carries_basic_iff {h : Headers} {user password : String} (hcolon : ':' ∉ user.toList)
    (hfield : h.get? "Authorization" = some ("Basic " ++ credentialsText user password)) {other secret : String} :
    h.Carries other secret ↔ other = user ∧ secret = password := by
  have hsent : h.Carries user password := by
    have htrim : Text.trim ("Basic " ++ credentialsText user password) = "Basic " ++ credentialsText user password := by
      refine Headers.trim_eq_self_iff.2 ⟨by simp [Text.isBlank], fun c hc => ?_⟩
      -- `c` is the last character of `credentialsText`, which is not empty.
      rw [String.toList_append, List.getLast?_append_of_ne_nil _ (credentialsText_ne_empty user password)] at hc
      exact isBlank_of_mem_credentialsText (List.mem_of_getLast? hc)
    exact ⟨_, "Basic", credentialsText user password, hfield, htrim, by decide,
      Text.trim_of_none fun c => isBlank_of_mem_credentialsText, hcolon⟩
  constructor
  · exact fun ho => hsent.unique ho
  · rintro ⟨rfl, rfl⟩
    exact hsent

/-! ### Users and roles -/

/-- Whether `h` carries the name of `user`, who has `roles` in the table, with exactly the password that the table has.
-/
def IdentityStore.Identifies (store : IdentityStore) (h : Headers) (user : String) (roles : List String) : Prop :=
  ∃ password, h.Carries user password ∧ store.get? user = some ⟨password, roles⟩

/-- At most one user is identified. -/
theorem IdentityStore.Identifies.unique {store : IdentityStore} {h : Headers} {user other : String}
    {roles others : List String} (hid : store.Identifies h user roles) (ho : store.Identifies h other others) :
    other = user ∧ others = roles := by
  obtain ⟨password, hcarries, haccount⟩ := hid
  obtain ⟨secret, hother, haccount'⟩ := ho
  obtain ⟨rfl, rfl⟩ := hcarries.unique hother
  simpa using haccount'.symm.trans haccount

/-- Whether one of `roles` is one that `c` asks for, if it asks for any. -/
def SecurityConstraint.Suits (c : SecurityConstraint) (roles : List String) : Prop :=
  c.roles = [] ∨ ∃ role ∈ c.roles, role ∈ roles

/-- `permits` decides whether the roles suit. -/
theorem SecurityConstraint.permits_iff {c : SecurityConstraint} {user : String} {roles : List String} :
    c.permits ⟨user, roles⟩ = true ↔ c.Suits roles := by
  simp [permits, Suits, Principal.hasRole]

namespace BasicAuth

variable {g : BasicAuth} {store : IdentityStore} {h : Headers} {path user : String} {roles : List String}
  {c : SecurityConstraint}

/-- To be authenticated against a store of users is to be identified. -/
theorem authenticates_iff : Authenticates store h ⟨user, roles⟩ ↔ store.Identifies h user roles := by
  simp only [Authenticates, IdentityStore.Identifies, credentials?_eq_some_iff, IdentityStore.validate?_eq_some_iff,
    Principal.mk.injEq]
  constructor
  · rintro ⟨_, password, hcarries, _, haccount, rfl, rfl⟩
    exact ⟨password, hcarries, haccount⟩
  · rintro ⟨password, hcarries, haccount⟩
    exact ⟨user, password, hcarries, roles, haccount, rfl, rfl⟩

/-- Whether `c` is the first of `constraints` whose pattern covers `path`. -/
def IsFirst (constraints : List SecurityConstraint) (path : String) (c : SecurityConstraint) : Prop :=
  c.pattern.covers path = true ∧
    ∃ before after, constraints = before ++ c :: after ∧ ∀ d ∈ before, d.pattern.covers path = false

/-- `constraint?` gives the first constraint whose pattern covers the path. -/
theorem constraint?_eq_some_iff : g.constraint? path = some c ↔ IsFirst g.constraints path c := by
  simp [constraint?, List.find?_eq_some_iff_append, IsFirst]

section First

variable {x : Exchange} (hstore : g.identities = store) (hc : IsFirst g.constraints x.request.relativePath c)

include hstore hc

/-- What the first constraint on a path (`hc`) decides: about a user in the table with a role that suits, about one
without, and about everybody else. -/
theorem check?_of_isFirst :
    (∃ user roles, store.Identifies x.request.head.headers user roles ∧ c.Suits roles ∧
      g.check? x = (bindSession? x ⟨user, roles⟩).map fun y =>
        (.allow, y.mapRequest fun r => { r with principal := some ⟨user, roles⟩ })) ∨
    (∃ user roles, store.Identifies x.request.head.headers user roles ∧ ¬ c.Suits roles ∧
      g.check? x = some (.deny 403 none, x)) ∨
    (∀ user roles, ¬ store.Identifies x.request.head.headers user roles) ∧ g.check? x = some (g.challenge, x) := by
  have hfound := constraint?_eq_some_iff.2 hc
  -- `Identifies` a user who `Suits`, a user who does not, or nobody.
  by_cases hknown : ∃ user roles, store.Identifies x.request.head.headers user roles
  · obtain ⟨user, roles, hid⟩ := hknown
    have hauth : Authenticates g.identities x.request.head.headers ⟨user, roles⟩ := hstore ▸ authenticates_iff.2 hid
    by_cases hsuits : c.Suits roles
    · obtain ⟨name, password, hcredentials, hvalid⟩ := hauth
      refine .inl ⟨user, roles, hid, hsuits, ?_⟩
      simp [check?, hfound, hcredentials, hvalid, SecurityConstraint.permits_iff.2 hsuits]
    · have hunfit : c.permits ⟨user, roles⟩ = false := Bool.eq_false_iff.2 (mt SecurityConstraint.permits_iff.1 hsuits)
      exact .inr (.inl ⟨user, roles, hid, hsuits, check?_of_denies (.unfit hfound hauth hunfit)⟩)
  · have hnone : ∀ user roles, ¬ store.Identifies x.request.head.headers user roles := by simpa using hknown
    refine .inr (.inr ⟨hnone, check?_of_denies (.unknown hfound fun caller hauth => ?_)⟩)
    exact hnone caller.name caller.roles (authenticates_iff.1 (hstore ▸ hauth))

/-- Whoever comes through (`h`) is in the table and suits the constraint. -/
theorem exists_identifies_of_allow {y : Exchange} (h : g.check? x = some (.allow, y)) :
    ∃ user roles, store.Identifies x.request.head.headers user roles ∧ c.Suits roles ∧
      y.request.principal = some ⟨user, roles⟩ := by
  rcases check?_of_isFirst hstore hc with ⟨user, roles, hid, hsuits, hcheck⟩ | ⟨_, _, -, -, hcheck⟩ | ⟨-, hcheck⟩
  · obtain ⟨z, -, hy⟩ := Option.map_eq_some_iff.1 (hcheck.symm.trans h)
    obtain ⟨-, rfl⟩ := Prod.mk.inj hy
    exact ⟨user, roles, hid, hsuits, rfl⟩
  · cases hcheck.symm.trans h
  · cases hcheck.symm.trans h

/-- And everybody like this (`hid`, `hsuits`) comes through, as long as there are ids (`hdraw`). -/
theorem exists_allow_of_identifies (hdraw : x.timed.CanDraw)
    (hid : store.Identifies x.request.head.headers user roles) (hsuits : c.Suits roles) :
    ∃ y, g.check? x = some (.allow, y) := by
  rcases check?_of_isFirst hstore hc with ⟨_, _, -, -, hcheck⟩ | ⟨_, _, hother, hunfit, -⟩ | ⟨hnone, -⟩
  · obtain ⟨z, hz⟩ := Option.isSome_iff_exists.1 (isSome_bindSession? hdraw ⟨_, _⟩)
    rw [hz] at hcheck
    exact ⟨_, hcheck⟩
  · exact absurd ((hother.unique hid).2 ▸ hsuits) hunfit
  · exact absurd hid (hnone user roles)

/-- The role alone is missing to whoever is forbidden to pass. -/
theorem check?_eq_forbidden_iff : g.check? x = some (.deny 403 none, x) ↔
    ∃ user roles, store.Identifies x.request.head.headers user roles ∧ ¬ c.Suits roles := by
  constructor
  · intro h
    rcases check?_of_isFirst hstore hc with ⟨_, _, -, -, hcheck⟩ | ⟨user, roles, hid, hunfit, -⟩ | ⟨-, hcheck⟩
    · obtain ⟨z, -, hy⟩ := Option.map_eq_some_iff.1 (hcheck.symm.trans h)
      cases (Prod.mk.inj hy).1
    · exact ⟨user, roles, hid, hunfit⟩
    · cases (Prod.mk.inj (Option.some.inj (hcheck.symm.trans h))).1
  · rintro ⟨user, roles, hid, hunfit⟩
    exact check?_of_denies (.unfit (constraint?_eq_some_iff.2 hc) (hstore ▸ authenticates_iff.2 hid)
      (Bool.eq_false_iff.2 (mt SecurityConstraint.permits_iff.1 hunfit)))

/-- Whoever is asked for credentials is not identified by those that came. -/
theorem check?_eq_challenge_iff : g.check? x = some (g.challenge, x) ↔
    ∀ user roles, ¬ store.Identifies x.request.head.headers user roles := by
  rcases check?_of_isFirst hstore hc with
    ⟨user, roles, hid, -, hcheck⟩ | ⟨user, roles, hid, -, hcheck⟩ | ⟨hnone, hcheck⟩
  · refine iff_of_false (fun h => ?_) fun hnone => hnone user roles hid
    obtain ⟨z, -, hy⟩ := Option.map_eq_some_iff.1 (hcheck.symm.trans h)
    cases (Prod.mk.inj hy).1
  · refine iff_of_false (fun h => ?_) fun hnone => hnone user roles hid
    cases (Prod.mk.inj (Option.some.inj (hcheck.symm.trans h))).1
  · exact iff_of_true hcheck hnone

end First

/-- **Basic authentication.** On a path that no constraint covers everybody is let through, and nothing changes.
Otherwise the first constraint `c` that covers the path decides:

* whoever is in the table, with exactly the password that the fields carry, and has a role that is asked for, is let
  through as this user, if an id can be drawn for the session;
* whoever lacks the role alone is forbidden to pass;
* everybody else is asked for credentials.

Turning somebody away changes nothing. What a client sends for a user name without a colon and a password identifies
just this user, by just this password. -/
theorem check?_decides (realm : String) (constraints : List SecurityConstraint) (store : IdentityStore) (x : Exchange) :
    let g : BasicAuth := ⟨realm, constraints, store⟩
    let fields := x.request.head.headers
    ((∀ c ∈ constraints, c.pattern.covers x.request.relativePath = false) → g.check? x = some (.allow, x)) ∧
    (∀ c, IsFirst constraints x.request.relativePath c →
      (∀ y, g.check? x = some (.allow, y) → ∃ user roles, store.Identifies fields user roles ∧ c.Suits roles ∧
        y.request.principal = some ⟨user, roles⟩) ∧
      (x.timed.CanDraw → (∃ user roles, store.Identifies fields user roles ∧ c.Suits roles) →
        ∃ y, g.check? x = some (.allow, y)) ∧
      (g.check? x = some (.deny 403 none, x) ↔ ∃ user roles, store.Identifies fields user roles ∧ ¬ c.Suits roles) ∧
      (g.check? x = some (.deny 401 (some ("Basic realm=\"" ++ realm ++ "\"")), x) ↔
        ∀ user roles, ¬ store.Identifies fields user roles)) ∧
    (∀ status challenge y, g.check? x = some (.deny status challenge, y) → y = x) ∧
    ∀ user password, ':' ∉ user.toList →
      fields.get? "Authorization" = some ("Basic " ++ credentialsText user password) →
      ∀ other roles, store.Identifies fields other roles ↔ other = user ∧ store.get? user = some ⟨password, roles⟩ := by
  intro g fields
  refine ⟨fun hnone => ?_, fun c hc => ⟨fun y => exists_identifies_of_allow rfl hc, ?_, check?_eq_forbidden_iff rfl hc,
    check?_eq_challenge_iff rfl hc⟩, fun _ _ _ => eq_of_deny, ?_⟩
  · have hunconstrained : g.constraint? x.request.relativePath = none :=
      List.find?_eq_none.2 fun c hc => by simp [hnone c hc]
    rw [check?, hunconstrained]
  · rintro hdraw ⟨user, roles, hid, hsuits⟩
    exact exists_allow_of_identifies rfl hc hdraw hid hsuits
  · -- By `carries_basic_iff` being identified is to carry a password and to have it in the table, and only one is
    -- carried.
    intro user password hcolon hfield other roles
    simp only [IdentityStore.Identifies, Headers.carries_basic_iff hcolon hfield]
    grind

/-! A door that is open to staff alone, and one of the staff whose password has a colon in it. -/

namespace Door

/-- A table in which `ann` is on the staff. -/
def users : IdentityStore := IdentityStore.empty.addUser "ann" "a:b" ["staff"]

/-- The constraint on `/staff`, for the staff. -/
def constraints : List SecurityConstraint := [⟨.below "/staff", ["staff"]⟩]

/-- A request that comes with the credentials of `ann`, where an id can be drawn. -/
def caller : Exchange :=
  let x : Exchange := .start (.ofLine "GET /staff HTTP/1.1") none (.detached "HTTP/1.1") 0 [Vector.replicate 16 0]
  x.mapRequest fun r =>
    { r with head.headers := r.head.headers.append "Authorization" ("Basic " ++ credentialsText "ann" "a:b") }

/-- The caller is let through, under her name. -/
theorem check?_decides_ann : ∃ y, (⟨"office", constraints, users⟩ : BasicAuth).check? caller = some (.allow, y) ∧
    y.request.principal = some ⟨"ann", ["staff"]⟩ := by
  obtain ⟨-, hfirst, -, hsent⟩ := check?_decides "office" constraints users caller
  have hann : users.Identifies caller.request.head.headers "ann" ["staff"] :=
    (hsent "ann" "a:b" (by decide) rfl "ann" ["staff"]).2 ⟨rfl, rfl⟩
  obtain ⟨hallowed, hallow, -⟩ := hfirst ⟨.below "/staff", ["staff"]⟩ ⟨by decide, [], [], rfl, by simp⟩
  have hdraw : caller.timed.CanDraw := ⟨Vector.replicate 16 0, List.mem_singleton_self _, rfl⟩
  obtain ⟨y, hy⟩ := hallow hdraw ⟨"ann", ["staff"], hann, .inr ⟨"staff", by simp⟩⟩
  -- Whoever is let through is identified by the same fields.
  obtain ⟨user, roles, hid, -, hprincipal⟩ := hallowed y hy
  obtain ⟨rfl, rfl⟩ := hann.unique hid
  exact ⟨y, hy, hprincipal⟩

end Door

end BasicAuth

end ServletContainer
