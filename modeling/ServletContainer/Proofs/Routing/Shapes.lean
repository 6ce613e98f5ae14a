import ServletContainer.Proofs.Text.Pieces
import ServletContainer.Routing.Pattern

namespace ServletContainer

/-!
# The shapes of patterns

* `UrlPattern.Denotes` — the texts of patterns, each with the pattern that it stands for.
* `UrlPattern.parse_eq_ok_iff`, `UrlPattern.parse_eq_error_iff` — these texts are read, and no others.
-/

namespace UrlPattern

/-- Whether a text is one of a `UrlPattern`. Slashes start the paths, asterisks stand in no other place than those shown
here, and extensions have no slashes. -/
inductive Denotes : String → UrlPattern → Prop
  /-- The empty text stands for the root of the application. -/
  | root : Denotes "" (.exact "/")
  | default : Denotes "/" .default
  | exact {rest : String} : rest ≠ "" → '*' ∉ rest.toList → Denotes ("/" ++ rest) (.exact ("/" ++ rest))
  | all : Denotes "/*" (.below "")
  | below {rest : String} : '*' ∉ rest.toList → Denotes ("/" ++ rest ++ "/*") (.below ("/" ++ rest))
  | extension {ext : String} : ext ≠ "" → Avoids ['/', '*'] ext → Denotes ("*." ++ ext) (.extension ext)

/-- What `ofChars?` reads (`h`) stands for the pattern: the shapes of `Denotes` are its branches. -/
theorem denotes_of_ofChars? {s : String} {q : UrlPattern} (h : ofChars? s.toList = some q) : Denotes s q := by
  unfold ofChars? at h
  split at h
  · next hs =>
    obtain rfl : s = "" := String.toList_inj.1 hs
    obtain rfl := Option.some.inj h
    exact .root
  · next hs =>
    obtain rfl : s = "/" := String.toList_inj.1 hs
    obtain rfl := Option.some.inj h
    exact .default
  · next ext hs =>
    obtain rfl : s = "*." ++ String.ofList ext := String.toList_inj.1 (by simp [hs])
    split at h
    · cases h
    · next hext =>
      obtain rfl := Option.some.inj h
      simp only [Bool.or_eq_true, List.isEmpty_iff, List.contains_iff_mem, not_or] at hext
      obtain ⟨⟨hne, hslash⟩, hstar⟩ := hext
      refine .extension (by simpa [← String.toList_inj] using hne) fun c hc hmem => ?_
      rw [String.toList_ofList] at hc
      rcases List.mem_pair.1 hmem with rfl | rfl
      · exact hslash hc
      · exact hstar hc
  · next r hne hs =>
    split at h
    · -- A text that ends with `/*` stands for the paths below.
      next path hdrop =>
      have hpath := Text.dropTail?_eq_some_iff.1 hdrop
      split at h
      · cases h
      · next hstar =>
        obtain rfl := Option.some.inj h
        rw [List.contains_iff_mem] at hstar
        cases path with
        | nil =>
          obtain rfl : s = "/*" := String.toList_inj.1 (by simp [hpath])
          exact .all
        | cons c rest =>
          rw [hs] at hpath
          obtain ⟨rfl, -⟩ := List.cons.inj hpath
          obtain rfl : s = "/" ++ String.ofList rest ++ "/*" := String.toList_inj.1 (by simp [hs, hpath])
          have hbelow : String.ofList ('/' :: rest) = "/" ++ String.ofList rest := String.toList_inj.1 (by simp)
          rw [hbelow]
          exact .below (by simpa using hstar)
    · split at h
      · cases h
      · next hstar =>
        obtain rfl := Option.some.inj h
        rw [List.contains_iff_mem, hs] at hstar
        obtain rfl : s = "/" ++ String.ofList r := String.toList_inj.1 (by simp [hs])
        rw [String.ofList_toList]
        exact .exact (fun hempty => hne (by simpa [← String.toList_inj] using hempty)) (by simpa using hstar)
  · cases h

/-- A text behind a slash is read by what it ends with. -/
theorem ofChars?_slash {r : List Char} (hne : r ≠ []) : ofChars? ('/' :: r) =
    match Text.dropTail? ['/', '*'] ('/' :: r) with
    | some path => if path.contains '*' then none else some (.below (String.ofList path))
    | none => if ('/' :: r).contains '*' then none else some (.exact (String.ofList ('/' :: r))) := by
  cases r with
  | nil => exact absurd rfl hne
  | cons c r => rfl

/-- And what stands for a pattern (`h`) is read as this one: no text has two of the shapes. -/
theorem ofChars?_of_denotes {s : String} {q : UrlPattern} (h : Denotes s q) : ofChars? s.toList = some q := by
  cases h with
  | root | default | all => rfl
  | @exact rest hne hstar =>
    have hlist : ("/" ++ rest).toList = '/' :: rest.toList := by simp
    have hmark : '*' ∉ '/' :: rest.toList := by simpa using hstar
    -- `rest` has no asterisk, so the text is not read as one of the paths below.
    have hdrop : Text.dropTail? ['/', '*'] ('/' :: rest.toList) = none := by
      rw [Option.eq_none_iff_forall_ne_some]
      intro path hpath
      exact hmark (by simp [Text.dropTail?_eq_some_iff.1 hpath])
    rw [hlist, ofChars?_slash (by simpa using hne), hdrop]
    dsimp only
    rw [if_neg (by rwa [List.contains_iff_mem]), ← hlist, String.ofList_toList]
  | @below rest hstar =>
    have hlist : ("/" ++ rest ++ "/*").toList = '/' :: (rest.toList ++ ['/', '*']) := by simp
    have hdrop : Text.dropTail? ['/', '*'] ('/' :: (rest.toList ++ ['/', '*'])) = some ('/' :: rest.toList) :=
      Text.dropTail?_eq_some_iff.2 rfl
    have htop : String.ofList ('/' :: rest.toList) = "/" ++ rest := String.toList_inj.1 (by simp)
    rw [hlist, ofChars?_slash (by simp), hdrop]
    dsimp only
    rw [if_neg (by simpa using hstar), htop]
  | @extension ext hne havoids =>
    have hlist : ("*." ++ ext).toList = '*' :: '.' :: ext.toList := by simp
    rw [hlist, ofChars?, if_neg, String.ofList_toList]
    simp [hne, havoids.not_mem (c := '/'), havoids.not_mem (c := '*')]

/-! ### Reading -/

/-- So `parse` reads what `Denotes` a pattern. -/
theorem parse_eq_ok_iff {s : String} {q : UrlPattern} : parse s = .ok q ↔ Denotes s q := by
  constructor
  · intro h
    unfold parse at h
    split at h
    · next hq =>
      obtain rfl := Except.ok.inj h
      exact denotes_of_ofChars? hq
    · cases h
  · intro h
    rw [parse, ofChars?_of_denotes h]

/-- Any other text is refused as it is. -/
theorem parse_eq_error_iff {s : String} {e : MappingError} :
    parse s = .error e ↔ (∀ q, ¬ Denotes s q) ∧ e = .invalidPattern s := by
  constructor
  · intro h
    refine ⟨fun q hq => ?_, ?_⟩
    · rw [parse_eq_ok_iff.2 hq] at h
      cases h
    · unfold parse at h
      split at h
      · cases h
      · exact (Except.error.inj h).symm
  · -- `s` denotes nothing, so `parse` fails; its only error is `invalidPattern s`.
    rintro ⟨hnone, rfl⟩
    cases hparse : parse s with
    | ok q => exact absurd (parse_eq_ok_iff.1 hparse) (hnone q)
    | error e =>
      unfold parse at hparse
      split at hparse
      · cases hparse
      · exact hparse.symm ▸ rfl

/-- A text denotes one pattern. -/
theorem Denotes.unique {s : String} {q q' : UrlPattern} (h : Denotes s q) (h' : Denotes s q') : q = q' :=
  Except.ok.inj ((parse_eq_ok_iff.2 h).symm.trans (parse_eq_ok_iff.2 h'))

end UrlPattern

end ServletContainer
