import ServletContainer.Proofs.Exchange.Steps
import ServletContainer.Security.BasicAuth

namespace ServletContainer

/-!
# What a call does to an exchange

* `Response.Reaches` — a response comes from another by calls to it.
* `Quiet` — from one exchange to another nothing is deferred or recorded, and the response changes by calls.
* `Op.Effect`, `Op.effect` — apart from deferring the request and leaving notes, every call is quiet, since each of
  its steps is.
* `BasicAuth.Records` — how the guard by credentials records a caller on a session.
* `BasicAuth.check?_cases`, `BasicAuth.steps_bindSession?` — what the guard does, and of which steps; it is quiet too.
-/

/-! ### Responses -/

namespace Response

/-- Whether calls lead from the response `r` to `r'`. -/
def Reaches (r r' : Response) : Prop := ∃ calls, r' = r.run calls

theorem Reaches.refl (r : Response) : r.Reaches r := ⟨[], rfl⟩

/-- `Reaches` composes, by appending the calls. -/
theorem Reaches.trans {r s t : Response} (h : r.Reaches s) (h' : s.Reaches t) : r.Reaches t := by
  obtain ⟨calls, rfl⟩ := h
  obtain ⟨calls', rfl⟩ := h'
  exact ⟨calls ++ calls', by simp [run]⟩

theorem Reaches.apply (r : Response) (c : Call) : r.Reaches (r.apply c) := ⟨[c], rfl⟩

end Response

/-! ### Quiet steps -/

/-- Whether from `x` to `y` nothing is deferred or recorded, and the response changes by calls alone. -/
structure Quiet (x y : Exchange) : Prop where
  pending : y.pending = x.pending
  journal : y.journal = x.journal
  response : x.response.Reaches y.response

namespace Quiet

variable {x y z : Exchange}

/-- What changes nothing is `Quiet`. -/
theorem refl (x : Exchange) : Quiet x x := ⟨rfl, rfl, .refl _⟩

/-- `Quiet` composes. -/
theorem trans (h : Quiet x y) (h' : Quiet y z) : Quiet x z :=
  ⟨h'.pending.trans h.pending, h'.journal.trans h.journal, h.response.trans h'.response⟩

/-- A step that leaves deferral, journal and response alone is `Quiet`. -/
theorem of_eq (hp : y.pending = x.pending) (hj : y.journal = x.journal) (hr : y.response = x.response) :
    Quiet x y := ⟨hp, hj, hr ▸ .refl _⟩

end Quiet

/-- A step of a call is `Quiet`, unless the call defers the request (`hdefer`) or leaves a note (`hnote`). -/
theorem Op.Step.quiet {op : Op} {x y : Exchange} (h : op.Step x y) (hdefer : ∀ c, op ≠ .startAsync c)
    (hnote : ∀ n, op ≠ .note n) : Quiet x y := by
  cases h with
  | respond c _ => exact ⟨rfl, rfl, .apply _ c⟩
  | defer c hc => exact absurd hc (hdefer c)
  | note n hn => exact absurd hn (hnote n)
  | store | bind | put | fields | input => exact .of_eq rfl rfl rfl

theorem Op.Steps.quiet {op : Op} {x y : Exchange} (h : op.Steps x y) (hdefer : ∀ c, op ≠ .startAsync c)
    (hnote : ∀ n, op ≠ .note n) : Quiet x y :=
  h.lift .refl .trans fun hs => hs.quiet hdefer hnote

/-! ### Calls -/

/-- What `op` may do from `x` to `y`: only `startAsync` defers the request, and all that is recorded is a note. -/
structure Op.Effect (op : Op) (x y : Exchange) : Prop where
  pending : y.pending = x.pending ∨ ∃ c, op = .startAsync c ∧ y.pending = some c
  journal : y.journal = x.journal ∨ ∃ n, y.journal = x.journal ++ [.noted n]
  response : x.response.Reaches y.response

/-- Every call has the `Effect` of its kind: `startAsync` and `note` by what they do, and any other is `Quiet`. -/
theorem Op.effect {op : Op} {x : Exchange} {p : op.Reply × Exchange} (h : op.perform x = some p) :
    op.Effect x p.2 := by
  -- All but two calls go by quiet steps.
  have quiet (hdefer : ∀ c, op ≠ .startAsync c) (hnote : ∀ n, op ≠ .note n) : op.Effect x p.2 :=
    have hq := (Op.steps_perform h).quiet hdefer hnote
    ⟨.inl hq.pending, .inl hq.journal, hq.response⟩
  cases op with
  | note n =>
    obtain rfl := Option.some.inj h
    exact ⟨.inl rfl, .inr ⟨n, rfl⟩, .refl _⟩
  | startAsync c =>
    obtain rfl := Option.some.inj h
    unfold Exchange.startAsync
    split
    · exact ⟨.inl rfl, .inl rfl, .refl _⟩
    · exact ⟨.inr ⟨c, rfl, rfl⟩, .inl rfl, .refl _⟩
  | _ => exact quiet (by simp) (by simp)

/-! ### Guards -/

namespace BasicAuth

variable {g : BasicAuth} {x y : Exchange}

/-- The session of `x` is looked up, and the one under `id` is asked for its `principalAttribute`. -/
def askSession (x : Exchange) (id : SessionId) : Option Value × Exchange :=
  x.currentSession.2.onSessions fun now s => s.getAttribute now id principalAttribute

/-- How `bindSession?` records `caller` in the session of `x`, call by call. -/
inductive Records (caller : Principal) (x : Exchange) : Exchange → Prop
  /-- There is no session. -/
  | absent : x.currentSession.1 = none → Records caller x x.currentSession.2
  /-- The session names the caller. -/
  | known {id} : x.currentSession.1 = some id → names caller.name (askSession x id).1 = true →
    Records caller x (askSession x id).2
  /-- The session is not moved. -/
  | stuck {id e y} : x.currentSession.1 = some id → names caller.name (askSession x id).1 = false →
    (askSession x id).2.changeSessionId? = some (.error e, y) → Records caller x y
  /-- The session is moved, and not found again. -/
  | lost {id new y} : x.currentSession.1 = some id → names caller.name (askSession x id).1 = false →
    (askSession x id).2.changeSessionId? = some (.ok new, y) → y.currentSession.1 = none →
    Records caller x y.currentSession.2
  /-- The session is moved, and then names the caller. -/
  | moved {id new y id'} : x.currentSession.1 = some id → names caller.name (askSession x id).1 = false →
    (askSession x id).2.changeSessionId? = some (.ok new, y) → y.currentSession.1 = some id' →
    Records caller x (y.currentSession.2.onSessions fun now s =>
      s.setAttribute now id' principalAttribute (.text caller.name)).2

/-- `bindSession?` `Records` the caller, in the order of its calls. -/
theorem records_of_bindSession? {caller : Principal} (h : bindSession? x caller = some y) : Records caller x y := by
  unfold bindSession? at h
  -- The branches of `bindSession?`, with what has been found at each of them.
  cases hx : x.currentSession with
  | mk found z =>
    have hz : z = x.currentSession.2 := by rw [hx]
    rw [hx] at h
    subst hz
    cases found with
    | none =>
      obtain rfl := Option.some.inj h
      exact .absent (congrArg Prod.fst hx)
    | some id =>
      have hid : x.currentSession.1 = some id := congrArg Prod.fst hx
      change (if names caller.name (askSession x id).1 = true then some (askSession x id).2 else _) = some y at h
      split at h
      · next hnames =>
        obtain rfl := Option.some.inj h
        exact .known hid hnames
      · next hnames =>
        have hother : names caller.name (askSession x id).1 = false := Bool.eq_false_iff.2 hnames
        obtain ⟨⟨changed, w⟩, hw, hy⟩ := Option.map_eq_some_iff.1 h
        cases changed with
        | error e =>
          obtain rfl := hy
          exact .stuck hid hother hw
        | ok new =>
          dsimp only at hy
          split at hy
          · next v hv =>
            obtain rfl := hy
            have hlost := Records.lost hid hother hw (congrArg Prod.fst hv)
            rwa [hv] at hlost
          · next id' v hv =>
            obtain rfl := hy
            have hmoved := Records.moved hid hother hw (congrArg Prod.fst hv)
            rwa [hv] at hmoved

/-- To record a caller is to look the session up and to move it, which an observer's call could do, and at most to write
`principalAttribute` into it. -/
theorem steps_bindSession? {caller : Principal} (h : bindSession? x caller = some y) :
    ∃ z, Op.observe.Steps x z ∧
      (y = z ∨ ∃ id, y = (z.onSessions fun now s =>
        s.setAttribute now id principalAttribute (.text caller.name)).2) := by
  have hfound := Op.steps_currentSession .observe x
  have hasked (id : SessionId) : Op.observe.Steps x (askSession x id).2 :=
    hfound.trans (Op.steps_access _ (a := .getAttribute principalAttribute) (by simp))
  cases records_of_bindSession? h with
  | absent _ => exact ⟨_, hfound, .inl rfl⟩
  | known _ _ => exact ⟨_, hasked _, .inl rfl⟩
  | stuck _ _ hw => exact ⟨_, (hasked _).trans (Op.steps_changeSessionId? hw), .inl rfl⟩
  | lost _ _ hw _ =>
    have hmoved := (hasked _).trans (Op.steps_changeSessionId? hw)
    exact ⟨_, hmoved.trans (Op.steps_currentSession .observe _), .inl rfl⟩
  | moved _ _ hw _ =>
    have hmoved := (hasked _).trans (Op.steps_changeSessionId? hw)
    exact ⟨_, hmoved.trans (Op.steps_currentSession .observe _), .inr ⟨_, rfl⟩⟩

/-- So it defers nothing and records nothing in the journal. -/
theorem quiet_bindSession? {caller : Principal} (h : bindSession? x caller = some y) : Quiet x y := by
  obtain ⟨z, hz, rfl | ⟨id, rfl⟩⟩ := steps_bindSession? h
  · exact hz.quiet (by simp) (by simp)
  · exact (hz.quiet (by simp) (by simp)).trans (.of_eq rfl rfl rfl)

/-- `check?` changes nothing, or records a caller whose credentials `validate?` knows. On a path with a constraint it
allows in the second case only. -/
theorem check?_cases {p : Decision × Exchange} (h : g.check? x = some p) :
    p.2 = x ∧ (p.1 = .allow → g.constraint? x.request.relativePath = none) ∨
    ∃ user password caller z, credentials? x.request.head.headers = some (user, password) ∧
      g.identities.validate? user password = some caller ∧ bindSession? x caller = some z ∧
      p = (.allow, z.mapRequest fun r => { r with principal := some caller }) := by
  unfold check? at h
  split at h
  · next hnone =>
    obtain rfl := Option.some.inj h
    exact .inl ⟨rfl, fun _ => hnone⟩
  · split at h
    · obtain rfl := Option.some.inj h
      exact .inl ⟨rfl, fun hallow => by cases hallow⟩
    · -- Credentials came; what counts is whether the table knows them, and then the constraint.
      next user password hcredentials =>
      split at h
      · obtain rfl := Option.some.inj h
        exact .inl ⟨rfl, fun hallow => by cases hallow⟩
      · next caller hcaller =>
        split at h
        · obtain ⟨z, hz, rfl⟩ := Option.map_eq_some_iff.1 h
          exact .inr ⟨user, password, caller, z, hcredentials, hcaller, hz, rfl⟩
        · obtain rfl := Option.some.inj h
          exact .inl ⟨rfl, fun hallow => by cases hallow⟩

/-- So `check?` keeps a relation `R` that `bindSession?` keeps and that does not depend on `principal` (`hrequest`). -/
theorem check?_lift {R : Exchange → Exchange → Prop} (hrefl : ∀ x, R x x)
    (hrequest : ∀ {x y} caller, R x y → R x (y.mapRequest fun r => { r with principal := some caller }))
    (hbind : ∀ {x y caller}, bindSession? x caller = some y → R x y) {p : Decision × Exchange}
    (h : g.check? x = some p) : R x p.2 := by
  rcases check?_cases h with ⟨hsame, -⟩ | ⟨_, _, caller, z, -, -, hz, rfl⟩
  · rw [hsame]
    exact hrefl x
  · exact hrequest caller (hbind hz)

/-- In particular it is `Quiet`. -/
theorem quiet_check? {p : Decision × Exchange} (h : g.check? x = some p) : Quiet x p.2 :=
  check?_lift .refl (fun _ hxy => hxy.trans (.of_eq rfl rfl rfl)) quiet_bindSession? h

end BasicAuth

end ServletContainer
