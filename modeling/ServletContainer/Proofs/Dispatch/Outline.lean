import ServletContainer.Proofs.Dispatch.Invocations

namespace ServletContainer

/-!
# The journal of a chain without its asides

While a filter or servlet runs it may note something, and it may dispatch to other targets, whose components are told of
in the same journal. All this is left out in the outline of a journal, which tells of the components of one chain alone.

* `outline` — the outline; each nested dispatch ends when the first of its components has run.
* `IsAside`, `Outlined` — entries that do not show in any outline, and entries with what shows of them.
* `Point.Steps.gainsAside` — the code of a component records nothing but asides, apart from the chain it continues.
* `Point.Step.unique`, `Point.steps_of_run`, `Point.steps_of_run_some` — a run as the one sequence of steps that it
  takes.
-/

/-! ### Outlines -/

/-- The entries that tell of the components of a chain itself. For each nested dispatch that is not over, innermost
first, there is in `nested` the number of its components that have not run to their end. -/
def outline : (nested : List Nat) → List Event → List Event
  | _, [] => []
  | nested, .noted _ :: r => outline nested r
  | nested, .dispatched _ _ _ :: r => outline (0 :: nested) r
  | [], .entered ref view :: r => .entered ref view :: outline [] r
  | [], .left ref result :: r => .left ref result :: outline [] r
  | n :: nested, .entered _ _ :: r => outline ((n + 1) :: nested) r
  | n :: nested, .left _ _ :: r => outline (if n ≤ 1 then nested else (n - 1) :: nested) r

/-- Whether `events` do not show in any `outline`, wherever they stand. -/
def IsAside (events : List Event) : Prop :=
  ∀ nested rest, outline nested (events ++ rest) = outline nested rest

theorem IsAside.nil : IsAside [] := fun _ _ => rfl

theorem IsAside.append {events others : List Event} (h : IsAside events) (h' : IsAside others) :
    IsAside (events ++ others) := by
  intro nested rest
  rw [List.append_assoc, h, h']

theorem IsAside.noted (n : Note) : IsAside [.noted n] := by
  intro nested rest
  simp [outline]

/-- Whether `events` show as `told` in the outline of their own chain, and not at all in a nested dispatch whose first
component is still running. -/
structure Outlined (events told : List Event) : Prop where
  shown : ∀ rest, outline [] (events ++ rest) = told ++ outline [] rest
  hidden : ∀ n nested rest, outline ((n + 1) :: nested) (events ++ rest) = outline ((n + 1) :: nested) rest

/-- An aside is `Outlined` by nothing. -/
theorem IsAside.outlined {events : List Event} (h : IsAside events) : Outlined events [] := ⟨h [], fun _ _ => h _⟩

/-- `Outlined` appends, as `outline` reads the journal from the front. -/
theorem Outlined.append {events told others more : List Event} (h : Outlined events told) (h' : Outlined others more) :
    Outlined (events ++ others) (told ++ more) where
  shown rest := by rw [List.append_assoc, h.shown, h'.shown, List.append_assoc]
  hidden n nested rest := by rw [List.append_assoc, h.hidden, h'.hidden]

section Component

variable {inner told : List Event} (h : Outlined inner told) (ref : ComponentRef) (view : Snapshot) (result : Outcome)

include h

theorem Outlined.component :
    Outlined (.entered ref view :: inner ++ [.left ref result]) (.entered ref view :: told ++ [.left ref result]) where
  shown rest := by simp [outline, h.shown]
  hidden n nested rest := by simp [outline, h.hidden]

/-- Behind its `.dispatched`, the chain of a nested dispatch is an aside: by `hidden` it does not show before the first
component is left. -/
theorem Outlined.isAside (servlet : String) (kind : DispatcherKind) (filters : Nat) :
    IsAside (.dispatched servlet kind filters :: (.entered ref view :: inner ++ [.left ref result])) := by
  intro nested rest
  simp [outline, h.hidden]

end Component

/-- Whether the journal `after` has gained nothing but asides on `before`. -/
def GainsAside (before after : List Event) : Prop := ∃ events, after = before ++ events ∧ IsAside events

namespace GainsAside

variable {j k l : List Event}

theorem refl (j : List Event) : GainsAside j j := ⟨[], by simp, .nil⟩

/-- `GainsAside` composes. -/
theorem trans (h : GainsAside j k) (h' : GainsAside k l) : GainsAside j l := by
  obtain ⟨events, rfl, hevents⟩ := h
  obtain ⟨events', rfl, hevents'⟩ := h'
  exact ⟨events ++ events', List.append_assoc .., hevents.append hevents'⟩

/-- A call adds notes at most. -/
theorem perform {op : Op} {x : Exchange} {p : op.Reply × Exchange} (h : op.perform x = some p) :
    GainsAside x.journal p.2.journal := by
  rcases (Op.effect h).journal with hsame | ⟨n, hnote⟩
  · rw [hsame]
    exact .refl _
  · rw [hnote]
    exact ⟨_, rfl, .noted n⟩

end GainsAside

/-! ### Steps -/

namespace Point

variable {dispatch : Dispatcher} {c d : Point}

/-- A point has at most one `Step`, since calls and dispatches are functions of the exchange. -/
theorem Step.unique : Relator.RightUnique (Step dispatch) := by
  intro c d d' h h'
  -- One constructor of `Step` for each form of code, or two that differ in whether there is a `rest`.
  cases h with
  | call hp =>
    cases h' with
    | call hp' => obtain rfl := Option.some.inj (hp.symm.trans hp'); rfl
  | jump hp =>
    cases h' with
    | jump hp' => obtain rfl := Option.some.inj (hp.symm.trans hp'); rfl
  | remaining =>
    cases h' with
    | remaining => rfl
  | alone =>
    cases h' with
    | alone => rfl
  | proceed hp =>
    cases h' with
    | proceed hp' => obtain rfl := Option.some.inj (hp.symm.trans hp'); rfl

/-- Some steps of a component, by `Step`. -/
abbrev Steps (dispatch : Dispatcher) : Point → Point → Prop := Relation.ReflTransGen (Step dispatch)

/-- Along `Steps` the chain is there until it is continued, and then no more. -/
theorem Steps.rest_eq (h : Steps dispatch c d) : d.rest = c.rest ∨ d.rest = none := by
  induction h with
  | refl => exact .inl rfl
  | tail _ hstep ih =>
    cases hstep with
    | call | jump | remaining => exact ih
    | alone | proceed => exact .inr rfl

/-- A run without a chain is `Steps` to the end of the code, by induction on it. -/
theorem steps_of_run {code : Program} {x : Exchange} {p : Outcome × Exchange}
    (h : code.run dispatch none x = some p) : Steps dispatch ⟨code, none, x⟩ ⟨.done p.1, none, p.2⟩ := by
  induction code generalizing x with
  | done result =>
    obtain rfl := Option.some.inj h
    exact .refl
  | call op k ih =>
    obtain ⟨q, hq, hrun⟩ := Option.bind_eq_some_iff.1 h
    exact .head (.call hq) (ih _ hrun)
  | jump j path k ih =>
    obtain ⟨q, hq, hrun⟩ := Option.bind_eq_some_iff.1 h
    exact .head (.jump hq) (ih _ hrun)
  | remaining k ih => exact .head .remaining (ih _ h)
  | proceed k ih => exact .head .alone (ih _ h)

/-- With a chain it is `Steps` to the end with the chain still there, or to where the code continues the chain, and from
there to the end without one. -/
theorem steps_of_run_some {code : Program} {r : Rest} {x : Exchange} {p : Outcome × Exchange}
    (h : code.run dispatch (some r) x = some p) :
    Steps dispatch ⟨code, some r, x⟩ ⟨.done p.1, some r, p.2⟩ ∨
    ∃ k y q, Steps dispatch ⟨code, some r, x⟩ ⟨.proceed k, some r, y⟩ ∧ r.go y = some q ∧
      Steps dispatch ⟨k (some q.1), none, q.2⟩ ⟨.done p.1, none, p.2⟩ := by
  -- A step that leaves `some r` in place stands before whatever comes then.
  have hhead : ∀ {code code' : Program} {x x' : Exchange},
      Step dispatch ⟨code, some r, x⟩ ⟨code', some r, x'⟩ →
      (Steps dispatch ⟨code', some r, x'⟩ ⟨.done p.1, some r, p.2⟩ ∨
        ∃ k y q, Steps dispatch ⟨code', some r, x'⟩ ⟨.proceed k, some r, y⟩ ∧ r.go y = some q ∧
          Steps dispatch ⟨k (some q.1), none, q.2⟩ ⟨.done p.1, none, p.2⟩) →
      Steps dispatch ⟨code, some r, x⟩ ⟨.done p.1, some r, p.2⟩ ∨
        ∃ k y q, Steps dispatch ⟨code, some r, x⟩ ⟨.proceed k, some r, y⟩ ∧ r.go y = some q ∧
          Steps dispatch ⟨k (some q.1), none, q.2⟩ ⟨.done p.1, none, p.2⟩ := by
    rintro code code' x x' hstep (hstops | ⟨k, y, q, hproceeds, hq, hends⟩)
    · exact .inl (.head hstep hstops)
    · exact .inr ⟨k, y, q, .head hstep hproceeds, hq, hends⟩
  induction code generalizing x with
  | done result =>
    obtain rfl := Option.some.inj h
    exact .inl .refl
  | call op k ih =>
    obtain ⟨q, hq, hrun⟩ := Option.bind_eq_some_iff.1 h
    exact hhead (.call hq) (ih _ hrun)
  | jump j path k ih =>
    obtain ⟨q, hq, hrun⟩ := Option.bind_eq_some_iff.1 h
    exact hhead (.jump hq) (ih _ hrun)
  | remaining k ih => exact hhead .remaining (ih _ h)
  | proceed k =>
    obtain ⟨q, hq, hrun⟩ := Option.bind_eq_some_iff.1 h
    exact .inr ⟨k, x, q, .refl, hq, steps_of_run hrun⟩

/-- `Steps` on which the chain stays as it is add asides only, if dispatches do (`hd`). -/
theorem Steps.gainsAside (hd : ∀ j path, Carries (fun x y => GainsAside x.journal y.journal) (dispatch j path))
    (h : Steps dispatch c d) (hrest : d.rest = c.rest) : GainsAside c.exchange.journal d.exchange.journal := by
  induction h with
  | refl => exact .refl _
  | @tail b d hsteps hstep ih =>
    cases hstep with
    | call hp => exact (ih hrest).trans (.perform hp)
    | jump hp => exact (ih hrest).trans (hd _ _ hp)
    | remaining => exact ih hrest
    | alone => exact ih hrest
    | proceed hp =>
      -- By `Steps.rest_eq` the chain that is used up here was there from the start, against `hrest`.
      rcases Steps.rest_eq hsteps with hsame | hnone
      · rw [← hrest] at hsame
        cases hsame
      · cases hnone

end Point

end ServletContainer
