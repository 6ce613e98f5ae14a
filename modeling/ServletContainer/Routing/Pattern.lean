import ServletContainer.Text.Quoted
import ServletContainer.Text.Split

namespace ServletContainer

/-!
# URL patterns

* `UrlPattern` — the four shapes of a pattern.
* `UrlPattern.parse` — reads a pattern; anything of another shape is refused.
* `UrlPattern.covers` — whether a pattern covers a path, other patterns left aside.
* `UrlPattern.text` — the text that a pattern is shown with.
-/

/-- A pattern for context-relative paths. -/
inductive UrlPattern where
  /-- The path itself. -/
  | exact (path : String)
  /-- The path and everything below it. -/
  | below (path : String)
  /-- Every path with this text behind the last dot of its last segment. -/
  | extension (ext : String)
  /-- Every path. -/
  | default
  deriving DecidableEq, Repr

/-- Why a pattern is not registered. -/
inductive MappingError where
  | invalidPattern (pattern : String)
  | conflict (pattern existing : String)
  deriving DecidableEq, Repr

/-- The text of the error. -/
def MappingError.message : MappingError → String
  | .invalidPattern p => "invalid url pattern " ++ Text.quote p
  | .conflict p existing =>
    "url pattern " ++ Text.quote p ++ " is already mapped to " ++ Text.quote existing

namespace UrlPattern

/-- Reads a pattern given as its characters. -/
def ofChars? (s : List Char) : Option UrlPattern :=
  match s with
  | [] => some (.exact "/")
  | ['/'] => some .default
  | '*' :: '.' :: ext =>
    if ext.isEmpty || ext.contains '/' || ext.contains '*' then none
    else some (.extension (String.ofList ext))
  | '/' :: _ =>
    match Text.dropTail? ['/', '*'] s with
    | some path => if path.contains '*' then none else some (.below (String.ofList path))
    | none => if s.contains '*' then none else some (.exact (String.ofList s))
  | _ => none

/-- Reads a pattern. -/
def parse (s : String) : Except MappingError UrlPattern :=
  match ofChars? s.toList with
  | some p => .ok p
  | none => .error (.invalidPattern s)

/-- The text that a pattern is shown with. -/
def text : UrlPattern → String
  | .exact p => p
  | .below p => p ++ "/*"
  | .extension e => "*." ++ e
  | .default => "/"

/-- What follows `top` in a path that is `top` or lies below it. -/
def restBelow? (top path : String) : Option (List Char) :=
  match Text.dropHead? top.toList path.toList with
  | some [] => some []
  | some ('/' :: r) => some ('/' :: r)
  | _ => none

/-- The last segment of a path. -/
def lastSegment (path : List Char) : List Char :=
  match Text.splitLast '/' path with
  | some (_, s) => s
  | none => path

/-- The text after the last dot of the last segment. -/
def extensionOf? (path : String) : Option String :=
  (Text.splitLast '.' (lastSegment path.toList)).map fun p => String.ofList p.2

/-- Whether a pattern covers a path. -/
def covers : UrlPattern → String → Bool
  | .exact p, path => p == path
  | .below top, path => (restBelow? top path).isSome
  | .extension e, path => extensionOf? path == some e
  | .default, _ => true

theorem restBelow?_eq_some_iff {top path : String} {r : List Char} :
    restBelow? top path = some r ↔
      path.toList = top.toList ++ r ∧ (r = [] ∨ ∃ t, r = '/' :: t) := by
  unfold restBelow?
  cases h : Text.dropHead? top.toList path.toList with
  | none =>
    have hn : ∀ x, ¬ path.toList = top.toList ++ x := fun x hx => by
      rw [Text.dropHead?_eq_some_iff.2 hx] at h
      simp at h
    simp [hn]
  | some s =>
    have hs := Text.dropHead?_eq_some_iff.1 h
    rw [hs]
    constructor
    · intro hr
      split at hr
      · simp_all
      · next t he =>
        simp only [Option.some.injEq] at hr he
        exact ⟨by rw [he, hr], .inr ⟨t, hr.symm⟩⟩
      · simp at hr
    · rintro ⟨he, hr⟩
      have : s = r := List.append_cancel_left he
      subst this
      rcases hr with rfl | ⟨t, rfl⟩ <;> rfl

end UrlPattern

end ServletContainer
