import ServletContainer.Proofs.Application.Building
import ServletContainer.Proofs.Host.Calls

namespace ServletContainer

/-!
# The calls that components receive

What an application's components were asked to do, over its whole life. Initializing them stops at the first that
fails, and begins again with the first one when it is tried anew; an application that was never fully initialized
is destroyed without its components.

* `FailedPass`, `Completion` — an initialization that failed, and what comes after all of these.
* `Deployment.Accounted` — the history of a deployment is made of these.
* `Deployment.Accounted.take`, `Host.accounted_run` — a step of a life keeps it, and so does a run of a host.
* `Host.lifecycle_of_run` — initialized and destroyed components, and exactly when they do not match.
-/

namespace LifecycleCall

/-- The call that initialized `c`. -/
abbrev opened (c : ComponentRef) : LifecycleCall := ⟨.init, c, true⟩

/-- The call that failed to initialize `c`. -/
abbrev failed (c : ComponentRef) : LifecycleCall := ⟨.init, c, false⟩

/-- The call that destroyed `c`. -/
abbrev closed (c : ComponentRef) : LifecycleCall := ⟨.destroy, c, true⟩

end LifecycleCall

open LifecycleCall (opened failed closed)

/-! ### Histories -/

/-- The components with an `opened` in `history`, in order. -/
def initialized (history : List LifecycleCall) : List ComponentRef :=
  (history.filter fun call => call.phase = .init ∧ call.succeeded = true).map LifecycleCall.component

/-- The components that were destroyed in `history`, in order. -/
def destroyed (history : List LifecycleCall) : List ComponentRef :=
  (history.filter fun call => call.phase = .destroy).map LifecycleCall.component

/-- A component is initialized once more behind an `opened` of it. -/
def Repeats (history : List LifecycleCall) : Prop :=
  ∃ c ok, [opened c, ⟨.init, c, ok⟩].Sublist history

/-- A `failed` stands behind an `opened`. -/
def Interrupted (history : List LifecycleCall) : Prop :=
  ∃ c c', [opened c, failed c'].Sublist history

/-- Behind an `opened` and then a `failed`, a component is initialized again. -/
def Resumed (history : List LifecycleCall) : Prop :=
  ∃ c c' call, call.phase = .init ∧ [opened c, failed c', call].Sublist history

section Histories

variable {l l' : List LifecycleCall} {refs : List ComponentRef} {c : ComponentRef}

@[simp] theorem initialized_nil : initialized [] = [] := rfl

@[simp] theorem destroyed_nil : destroyed [] = [] := rfl

/-- `initialized` is read piece by piece. -/
@[simp] theorem initialized_append : initialized (l ++ l') = initialized l ++ initialized l' := by
  simp [initialized]

/-- So is `destroyed`. -/
@[simp] theorem destroyed_append : destroyed (l ++ l') = destroyed l ++ destroyed l' := by
  simp [destroyed]

/-- Components that were `opened` are initialized, in order. -/
@[simp] theorem initialized_map_opened : initialized (refs.map opened) = refs := by
  simp [initialized, List.filter_map, Function.comp_def]

@[simp] theorem destroyed_map_opened : destroyed (refs.map opened) = [] := by
  simp [destroyed]

@[simp] theorem initialized_map_closed : initialized (refs.map closed) = [] := by
  simp [initialized]

/-- Components that were `closed` are destroyed, in order. -/
@[simp] theorem destroyed_map_closed : destroyed (refs.map closed) = refs := by
  simp [destroyed, List.filter_map, Function.comp_def]

/-- To be `initialized` is to be `opened` somewhere in the history. -/
theorem mem_initialized_iff : c ∈ initialized l ↔ opened c ∈ l := by
  simp only [initialized, List.mem_map, List.mem_filter, decide_eq_true_eq]
  constructor
  · rintro ⟨⟨phase, c', ok⟩, ⟨hmem, rfl, rfl⟩, rfl⟩
    exact hmem
  · intro hmem
    exact ⟨opened c, ⟨hmem, rfl, rfl⟩, rfl⟩

/-- Two calls stand in this order in `l ++ l'` if they do in one of the two, or the one stands in `l` and the other in
`l'`. -/
theorem pair_sublist_append {x y : LifecycleCall} :
    [x, y].Sublist (l ++ l') ↔ [x, y].Sublist l ∨ (x ∈ l ∧ y ∈ l') ∨ [x, y].Sublist l' := by
  rw [List.sublist_append_iff]
  constructor
  · rintro ⟨l₁, l₂, heq, h₁, h₂⟩
    -- None, one or both of `x` and `y` stand in `l₁`.
    match l₁, heq with
    | [], heq => exact .inr (.inr (heq ▸ h₂))
    | [z], heq =>
      obtain ⟨rfl, rfl⟩ : x = z ∧ [y] = l₂ := by simpa using heq
      exact .inr (.inl ⟨List.singleton_sublist.1 h₁, List.singleton_sublist.1 h₂⟩)
    | z :: w :: r, heq =>
      obtain ⟨rfl, rfl, rfl, -⟩ : x = z ∧ y = w ∧ r = [] ∧ l₂ = [] := by simpa [eq_comm] using heq
      exact .inl h₁
  · rintro (h | ⟨hx, hy⟩ | h)
    · exact ⟨[x, y], [], by simp, h, List.nil_sublist _⟩
    · exact ⟨[x], [y], rfl, List.singleton_sublist.2 hx, List.singleton_sublist.2 hy⟩
    · exact ⟨[], [x, y], rfl, List.nil_sublist _, h⟩

end Histories

/-! ### Initializing -/

/-- What is noted of an initialization of `refs` that failed: some are `opened`, and the next one is `failed`. -/
def FailedPass (refs : List ComponentRef) (p : List LifecycleCall) : Prop :=
  ∃ before c after, refs = before ++ c :: after ∧ p = before.map opened ++ [failed c]

namespace Deployment

/-- `initAll` initializes all components in order, or adds a `FailedPass` and fails. -/
theorem initAll_cases (components : List (ComponentRef × Component)) (history : List LifecycleCall) :
    initAll components history = (.ok (), history ++ (components.map Prod.fst).map opened) ∨
      ∃ e p, FailedPass (components.map Prod.fst) p ∧ initAll components history = (.error e, history ++ p) := by
  -- By induction on `components`; `history` only grows at its end.
  induction components generalizing history with
  | nil => exact .inl (by simp [initAll])
  | cons rc r ih =>
    obtain ⟨ref, component⟩ := rc
    rw [initAll]
    cases hfails : component.initFailure (initCount history ref) with
    | some e => exact .inr ⟨.init ref e, [failed ref], ⟨[], ref, r.map Prod.fst, rfl, rfl⟩, rfl⟩
    | none =>
      rcases ih (history ++ [opened ref]) with hok | ⟨e, p, ⟨before, c, after, hrefs, rfl⟩, herror⟩
      · exact .inl (by simp [hok])
      · refine .inr ⟨e, opened ref :: (before.map opened ++ [failed c]), ?_, by simp [herror]⟩
        exact ⟨ref :: before, c, after, by simp [hrefs], by simp⟩

end Deployment

/-! ### The history of a deployment -/

/-- What is noted behind the passes that failed, according to the `LifecycleState`: nothing in `constructed`, all of
`refs` as `opened` from then on, and all of them as `closed` in reverse if an initialized application was destroyed. -/
def Completion (refs : List ComponentRef) : LifecycleState → List LifecycleCall → Prop
  | .constructed, l => l = []
  | .destroyed, l => l = [] ∨ l = refs.map opened ++ refs.reverse.map closed
  | .initialized, l | .started, l | .stopped, l => l = refs.map opened

namespace Deployment

/-- The components of `d`, as `d.app` lists them. -/
def refs (d : Deployment) : List ComponentRef := d.app.components.map Prod.fst

/-- The history of `d` consists of `FailedPass`es and a `Completion`. -/
def Accounted (d : Deployment) : Prop :=
  ∃ (passes : List (List LifecycleCall)) (rest : List LifecycleCall),
    (∀ p ∈ passes, FailedPass d.refs p) ∧ d.history = passes.flatten ++ rest ∧ Completion d.refs d.state rest

/-- A new deployment is `Accounted`: it has no history. -/
theorem accounted_ofApplication (a : Application) : (ofApplication a).Accounted :=
  ⟨[], [], nofun, rfl, rfl⟩

variable {d d' : Deployment}

/-- `move` fails and changes nothing, or goes from one of `sources` to `target`. -/
theorem move_cases (d : Deployment) (sources : List LifecycleState) (target : LifecycleState) :
    (∃ e, d.move sources target = (.error e, d)) ∨
      d.state ∈ sources ∧ d.move sources target = (.ok (), { d with state := target }) := by
  unfold move
  by_cases hstate : sources.contains d.state = true
  · exact .inr ⟨by simpa using hstate, by rw [if_pos hstate]⟩
  · exact .inl ⟨_, by rw [if_neg hstate]⟩

/-- `init` keeps `Accounted`: it does nothing, or adds one more failed pass, or all components. -/
theorem Accounted.init (h : d.Accounted) : d.init.2.Accounted := by
  obtain ⟨passes, rest, hpasses, hhistory, hrest⟩ := h
  unfold Deployment.init
  by_cases hstate : d.state = .constructed
  · rw [if_pos hstate]
    -- In the state `constructed` the `Completion` is empty, so this pass comes right behind the failed ones.
    rw [hstate] at hrest
    obtain rfl : rest = [] := hrest
    rw [List.append_nil] at hhistory
    rcases initAll_cases d.app.components d.history with hok | ⟨e, p, hp, herror⟩
    · rw [hok, hhistory]
      exact ⟨passes, d.refs.map opened, hpasses, rfl, rfl⟩
    · rw [herror, hhistory]
      refine ⟨passes ++ [p], [], ?_, by simp, ?_⟩
      · intro q hq
        rcases List.mem_append.1 hq with hq | hq
        · exact hpasses q hq
        · exact List.mem_singleton.1 hq ▸ hp
      · show Completion d.refs d.state []
        rw [hstate]
        rfl
  · rw [if_neg hstate]
    exact ⟨passes, rest, hpasses, hhistory, hrest⟩

/-- `move` keeps it where the two states ask the same of the history (`hsame`), as no component is called. -/
theorem Accounted.move (h : d.Accounted) {source target : LifecycleState}
    (hsame : ∀ l, Completion d.refs source l → Completion d.refs target l) :
    (d.move [source] target).2.Accounted := by
  obtain ⟨passes, rest, hpasses, hhistory, hrest⟩ := h
  rcases d.move_cases [source] target with ⟨e, hmove⟩ | ⟨hstate, hmove⟩
  · rw [hmove]
    exact ⟨passes, rest, hpasses, hhistory, hrest⟩
  · rw [hmove]
    rw [List.mem_singleton.1 hstate] at hrest
    exact ⟨passes, rest, hpasses, hhistory, hsame rest hrest⟩

/-- `destroy` keeps it: all components are closed in reverse order, or none where none was initialized. -/
theorem Accounted.destroy (h : d.Accounted) : d.destroy.2.Accounted := by
  obtain ⟨passes, rest, hpasses, hhistory, hrest⟩ := h
  unfold Deployment.destroy
  rcases d.move_cases [.constructed, .initialized, .stopped] .destroyed with ⟨e, hmove⟩ | ⟨hstate, hmove⟩
  · rw [hmove]
    exact ⟨passes, rest, hpasses, hhistory, hrest⟩
  · rw [hmove]
    -- Of the three states that `destroy` starts from, only in `constructed` it calls no hook.
    by_cases hnew : d.state = .constructed
    · rw [hnew] at hrest
      obtain rfl : rest = [] := hrest
      refine ⟨passes, [], hpasses, ?_, .inl rfl⟩
      simp only [hnew, if_true, List.append_nil]
      exact hhistory.trans (List.append_nil _)
    · obtain rfl : rest = d.refs.map opened := by
        simp only [List.mem_cons, List.not_mem_nil, or_false] at hstate
        rcases hstate with hstate | hstate | hstate
        · exact absurd hstate hnew
        · rw [hstate] at hrest
          exact hrest
        · rw [hstate] at hrest
          exact hrest
      refine ⟨passes, d.refs.map opened ++ d.refs.reverse.map closed, hpasses, ?_, .inr rfl⟩
      simp only [hnew, if_false, hhistory, refs, List.append_assoc, List.map_reverse, List.map_map]
      rfl

/-- So every `LifecycleStep` keeps a deployment `Accounted`. -/
theorem Accounted.take (h : d.Accounted) (s : LifecycleStep) : (d.take s).2.Accounted := by
  cases s with
  | init => exact h.init
  | start => exact h.move fun _ hl => hl
  | stop => exact h.move fun _ hl => hl
  | destroy => exact h.destroy

/-- So does every life of a deployment, by induction on its steps. -/
theorem Accounted.lives (h : d.Accounted) (hlives : d.Lives d') : d'.Accounted := by
  induction hlives with
  | refl => exact h
  | tail _ hstep ih =>
    obtain ⟨s, rfl⟩ := hstep
    exact ih.take s

end Deployment

/-! ### What a history shows -/

section Shown

variable {refs : List ComponentRef} {passes : List (List LifecycleCall)} {rest : List LifecycleCall}
  {state : LifecycleState} (hpasses : ∀ p ∈ passes, FailedPass refs p)

/-- What follows the failed passes is nothing, an initialization, or one with its destruction. -/
theorem Completion.cases (h : Completion refs state rest) :
    rest = [] ∨ rest = refs.map opened ∨ rest = refs.map opened ++ refs.reverse.map closed := by
  cases state with
  | constructed => exact .inl h
  | destroyed => exact h.imp_right .inr
  | _ => exact .inr (.inl h)

theorem Completion.failed_not_mem (h : Completion refs state rest) (c : ComponentRef) : failed c ∉ rest := by
  rcases h.cases with rfl | rfl | rfl <;> simp

include hpasses

/-- Failed passes destroy no component, by induction on them. -/
theorem destroyed_passes : destroyed passes.flatten = [] := by
  induction passes with
  | nil => rfl
  | cons p passes ih =>
    obtain ⟨before, c, after, -, rfl⟩ := hpasses p List.mem_cons_self
    rw [List.flatten_cons, destroyed_append, ih fun q hq => hpasses q (List.mem_cons_of_mem _ hq)]
    simp [destroyed]

/-- A history is `Interrupted` if and only if one of its failed passes has initialized anything. -/
theorem interrupted_iff (hrest : Completion refs state rest) :
    Interrupted (passes.flatten ++ rest) ↔ initialized passes.flatten ≠ [] := by
  constructor
  · rintro ⟨c, c', hpair⟩
    -- `failed c'` stands in one of the passes, and `opened c` before it.
    have hmem : opened c ∈ passes.flatten := by
      rcases pair_sublist_append.1 hpair with h | ⟨-, h⟩ | h
      · exact h.subset (by simp)
      · exact absurd h (hrest.failed_not_mem c')
      · exact absurd (h.subset (by simp)) (hrest.failed_not_mem c')
    exact List.ne_nil_of_mem (mem_initialized_iff.2 hmem)
  · intro hne
    obtain ⟨c, hc⟩ := List.exists_mem_of_ne_nil _ hne
    obtain ⟨p, hp, hmem⟩ := List.mem_flatten.1 (mem_initialized_iff.1 hc)
    obtain ⟨before, c', after, -, rfl⟩ := hpasses p hp
    have hc : opened c ∈ before.map opened := by simpa using hmem
    have hpair : [opened c, failed c'].Sublist (before.map opened ++ [failed c']) :=
      (List.singleton_sublist.2 hc).append (List.Sublist.refl _)
    exact ⟨c, c', (hpair.trans (List.sublist_flatten_of_mem hp)).trans (List.sublist_append_left _ _)⟩

/-- Where a history has any call, the first component `c₀` was initialized, or failed to. -/
theorem exists_first_of_mem {c₀ : ComponentRef} {others : List ComponentRef} (hrefs : refs = c₀ :: others)
    (hrest : Completion refs state rest) {call : LifecycleCall} (hmem : call ∈ passes.flatten ++ rest) :
    ∃ ok, ⟨.init, c₀, ok⟩ ∈ passes.flatten ++ rest := by
  rcases List.mem_append.1 hmem with hmem | hmem
  · obtain ⟨p, hp, -⟩ := List.mem_flatten.1 hmem
    have hin : ∃ ok, (⟨.init, c₀, ok⟩ : LifecycleCall) ∈ p := by
      obtain ⟨before, c, after, heq, rfl⟩ := hpasses p hp
      -- `c₀` failed itself, or heads `before`.
      cases before with
      | nil =>
        obtain ⟨rfl, -⟩ : c₀ = c ∧ others = after := by simpa using hrefs.symm.trans heq
        exact ⟨false, by simp⟩
      | cons b r =>
        obtain ⟨rfl, -⟩ : c₀ = b ∧ others = r ++ c :: after := by simpa using hrefs.symm.trans heq
        exact ⟨true, by simp⟩
    obtain ⟨ok, hok⟩ := hin
    exact ⟨ok, List.mem_append_left _ (List.mem_flatten.2 ⟨p, hp, hok⟩)⟩
  · refine ⟨true, List.mem_append_right _ ?_⟩
    rcases hrest.cases with rfl | rfl | rfl
    · cases hmem
    · simp [hrefs]
    · simp [hrefs]

end Shown

section Repetition

variable {refs before : List ComponentRef} {c : ComponentRef} {history : List LifecycleCall}

/-- One initialization of pairwise distinct components (`hnodup`) repeats none. -/
theorem not_repeats_opened (hnodup : refs.Nodup) : ¬ Repeats (refs.map opened) := by
  rintro ⟨c, ok, hpair⟩
  have hrefs : [c, c].Sublist refs := by
    have hmap := hpair.map LifecycleCall.component
    rwa [List.map_map, show LifecycleCall.component ∘ opened = id from rfl, List.map_id] at hmap
  exact List.nodup_iff_sublist.1 hnodup c hrefs

/-- The calls with which it is completed and destroyed (`h`) repeat none either. -/
theorem not_repeats_completion {state : LifecycleState} {rest : List LifecycleCall} (hnodup : refs.Nodup)
    (h : Completion refs state rest) : ¬ Repeats rest := by
  rcases h.cases with rfl | rfl | rfl
  · rintro ⟨c, ok, hpair⟩
    cases hpair
  · exact not_repeats_opened hnodup
  · rintro ⟨c, ok, hpair⟩
    rcases pair_sublist_append.1 hpair with h | ⟨-, h⟩ | h
    · exact not_repeats_opened hnodup ⟨c, ok, h⟩
    · simp at h
    · have hmem := h.subset List.mem_cons_self
      simp at hmem

/-- A pass in which the first component fails initializes none, so it makes no difference to `Repeats`. -/
theorem repeats_failed_cons : Repeats (failed c :: history) ↔ Repeats history := by
  unfold Repeats
  refine exists_congr fun c' => exists_congr fun ok => ?_
  rw [List.cons_sublist_cons']
  simp

/-- Such a pass makes no difference to `Resumed` either. -/
theorem resumed_failed_cons : Resumed (failed c :: history) ↔ Resumed history := by
  unfold Resumed
  refine exists_congr fun c₁ => exists_congr fun c₂ => exists_congr fun call => and_congr_right fun _ => ?_
  rw [List.cons_sublist_cons']
  simp

variable {first : ComponentRef}

/-- Behind a failed pass that has initialized `first`, a history `Repeats` if and only if anything follows: whatever
follows starts with the first component again (`hfirst`). -/
theorem repeats_pass_append (hnodup : (first :: before ++ [c]).Nodup)
    (hfirst : history ≠ [] → ∃ ok, (⟨.init, first, ok⟩ : LifecycleCall) ∈ history) :
    Repeats ((first :: before).map opened ++ [failed c] ++ history) ↔ history ≠ [] := by
  constructor
  · rintro ⟨c', ok, hpair⟩ rfl
    rw [List.append_nil] at hpair
    -- By `hnodup` no component is called twice within one pass.
    have hrefs : [c', c'].Sublist (first :: before ++ [c]) := by
      have hmap := hpair.map LifecycleCall.component
      simpa [Function.comp_def] using hmap
    exact List.nodup_iff_sublist.1 hnodup c' hrefs
  · intro hne
    -- By `hfirst`, what comes later begins with `first` again.
    obtain ⟨ok, hok⟩ := hfirst hne
    exact ⟨first, ok, pair_sublist_append.2 (.inr (.inl ⟨by simp, hok⟩))⟩

/-- And so it is with `Resumed`. -/
theorem resumed_pass_append (hfirst : history ≠ [] → ∃ ok, (⟨.init, first, ok⟩ : LifecycleCall) ∈ history) :
    Resumed ((first :: before).map opened ++ [failed c] ++ history) ↔ history ≠ [] := by
  constructor
  · rintro ⟨c₁, c₂, call, -, htriple⟩ rfl
    rw [List.append_nil] at htriple
    -- The only `failed` of a pass stands at its end.
    have hpair := (List.sublist_cons_self _ _).trans htriple
    rcases pair_sublist_append.1 hpair with h | ⟨h, -⟩ | h
    · have hmem : failed c₂ ∈ (first :: before).map opened := h.subset List.mem_cons_self
      simp at hmem
    · simp at h
    · simpa using h.length_le
  · intro hne
    obtain ⟨ok, hok⟩ := hfirst hne
    have hpass : [opened first, failed c].Sublist ((first :: before).map opened ++ [failed c]) :=
      (List.singleton_sublist.2 (by simp)).append (List.Sublist.refl _)
    exact ⟨first, c, ⟨.init, first, ok⟩, rfl, hpass.append (List.singleton_sublist.2 hok)⟩

/-- So the history of a deployment `Repeats` if and only if it is `Resumed`. -/
theorem repeats_iff_resumed {passes : List (List LifecycleCall)} {rest : List LifecycleCall}
    {state : LifecycleState} (hnodup : refs.Nodup) (hpasses : ∀ p ∈ passes, FailedPass refs p)
    (hrest : Completion refs state rest) :
    Repeats (passes.flatten ++ rest) ↔ Resumed (passes.flatten ++ rest) := by
  -- By induction on `passes`. One that fails at once counts for neither side; with any other one, both say that
  -- something comes after it.
  induction passes with
  | nil =>
    refine iff_of_false (not_repeats_completion hnodup hrest) ?_
    rintro ⟨c₁, c₂, call, -, htriple⟩
    exact hrest.failed_not_mem c₂ (htriple.subset (by simp))
  | cons p passes ih =>
    have hpasses' := fun q hq => hpasses q (List.mem_cons_of_mem _ hq)
    obtain ⟨before, c, after, hrefs, rfl⟩ := hpasses p List.mem_cons_self
    rw [List.flatten_cons, List.append_assoc]
    cases before with
    | nil =>
      rw [List.map_nil, List.nil_append, List.singleton_append, repeats_failed_cons, resumed_failed_cons,
        ih hpasses']
    | cons first before =>
      have hfirst : passes.flatten ++ rest ≠ [] →
          ∃ ok, (⟨.init, first, ok⟩ : LifecycleCall) ∈ passes.flatten ++ rest := by
        intro hne
        obtain ⟨call, hmem⟩ := List.exists_mem_of_ne_nil _ hne
        exact exists_first_of_mem hpasses' hrefs hrest hmem
      have hpass : (first :: before ++ [c]).Nodup := by
        rw [hrefs, List.append_cons] at hnodup
        exact hnodup.of_append_left
      rw [repeats_pass_append hpass hfirst, resumed_pass_append hfirst]

end Repetition

/-! ### Every run -/

namespace Deployment

variable {d : Deployment}

/-- Destroyed components have been initialized, and each is destroyed once. -/
theorem Accounted.destroyed_subset (h : d.Accounted) (hnodup : d.refs.Nodup) :
    (destroyed d.history).Nodup ∧ ∀ c ∈ destroyed d.history, c ∈ initialized d.history := by
  obtain ⟨passes, rest, hpasses, hhistory, hrest⟩ := h
  rw [hhistory, destroyed_append, initialized_append, destroyed_passes hpasses, List.nil_append]
  rcases hrest.cases with rfl | rfl | rfl
  · exact ⟨List.nodup_nil, nofun⟩
  · rw [destroyed_map_opened]
    exact ⟨List.nodup_nil, nofun⟩
  · simp only [destroyed_append, destroyed_map_opened, destroyed_map_closed, initialized_append,
      initialized_map_opened, List.nil_append]
    refine ⟨List.nodup_reverse.2 hnodup, fun c hc => ?_⟩
    simp [List.mem_reverse.1 hc]

/-- Once a deployment is `destroyed`, its components were destroyed in the reverse order of `initialized`, each once, if
and only if no initialization was `Interrupted`. -/
theorem Accounted.destroyed_eq_iff (h : d.Accounted) (hstate : d.state = .destroyed) :
    destroyed d.history = (initialized d.history).reverse ↔ ¬ Interrupted d.history := by
  obtain ⟨passes, rest, hpasses, hhistory, hrest⟩ := h
  rw [hhistory, interrupted_iff hpasses hrest, not_not, destroyed_append, initialized_append,
    destroyed_passes hpasses, List.nil_append]
  rw [hstate] at hrest
  -- Either nothing was destroyed, or all of `d.refs` in reverse: what failed passes initialized is missing.
  rcases hrest with rfl | rfl
  · rw [destroyed_nil, initialized_nil, List.append_nil, eq_comm, List.reverse_eq_nil_iff]
  · simp only [destroyed_append, destroyed_map_opened, destroyed_map_closed, initialized_append,
      initialized_map_opened, initialized_map_closed, List.nil_append, List.append_nil, List.reverse_append]
    rw [List.self_eq_append_right, List.reverse_eq_nil_iff]

end Deployment

namespace Host

variable {h : Host} {id : AppId} {b : Blueprint} {a : Application}

/-- A deployment that was new stays `Accounted` through all calls of its host. -/
theorem accounted_run (hd : h.deployment? id = some (.ofApplication a)) (calls : List Call) :
    ∃ d, (h.run calls).deployment? id = some d ∧ d.app = a ∧ d.Accounted := by
  have hlives := h.lives_run calls id
  rw [hd] at hlives
  cases hd' : (h.run calls).deployment? id with
  | none =>
    rw [hd'] at hlives
    cases hlives
  | some d =>
    rw [hd'] at hlives
    cases hlives with
    | some hlives =>
      exact ⟨d, rfl, hlives.app_eq, (Deployment.accounted_ofApplication a).lives hlives⟩

/-- **Lifecycle.** Take an application `a` that was built (`hb`), and any `calls` on its host. What its components were
asked to do is the `history` of its deployment `d`:

* each component is `destroyed` at most once, and only after it was `initialized`;
* it `Repeats` an initialization that had succeeded if and only if it is `Resumed`: a component had failed after others
  were initialized, and then components were initialized again;
* once `d` is destroyed, the components that were initialized have been destroyed in the reverse order, each once, if
  and only if no initialization was `Interrupted`. -/
theorem lifecycle_of_run (hb : b.build = .ok a) (hd : h.deployment? id = some (.ofApplication a))
    (calls : List Call) :
    ∃ d, (h.run calls).deployment? id = some d ∧ d.app = a ∧
      (destroyed d.history).Nodup ∧ (∀ c ∈ destroyed d.history, c ∈ initialized d.history) ∧
      (Repeats d.history ↔ Resumed d.history) ∧
      (d.state = .destroyed →
        (destroyed d.history = (initialized d.history).reverse ↔ ¬ Interrupted d.history)) := by
  obtain ⟨d, hrun, happ, hacc⟩ := accounted_run hd calls
  have hnodup : d.refs.Nodup := by
    rw [Deployment.refs, happ]
    exact Blueprint.nodup_of_build hb
  obtain ⟨hdistinct, hsubset⟩ := hacc.destroyed_subset hnodup
  refine ⟨d, hrun, happ, hdistinct, hsubset, ?_, hacc.destroyed_eq_iff⟩
  obtain ⟨passes, rest, hpasses, hhistory, hrest⟩ := hacc
  rw [hhistory]
  exact repeats_iff_resumed hnodup hpasses hrest

/-! ### Two servlets -/

/-- Servlets `a` and `b`, which fail to initialize as `failsFirst` and `failsSecond` tell for each attempt. -/
def pair (failsFirst failsSecond : Nat → Option ServletError) : List Servlet :=
  [⟨"a", .done (.ok ()), failsFirst, false⟩, ⟨"b", .done (.ok ()), failsSecond, false⟩]

/-- A host with an application of that `pair`, not initialized yet. -/
def pairHost (failsFirst failsSecond : Nat → Option ServletError) : Host :=
  ((start []).add (.ofServlets "/pair" (pair failsFirst failsSecond))).2

/-- A component that can be initialized. -/
def ready : Nat → Option ServletError := fun _ => none

/-- A component whose first initialization fails. -/
def busyAtFirst : Nat → Option ServletError := fun n => if n = 0 then some (.illegalState "busy") else none

/-- A component that cannot be initialized. -/
def broken : Nat → Option ServletError := fun _ => some (.illegalState "broken")

/-- The first servlet is `busyAtFirst`: nothing was initialized before it, so the application can be published and taken
back as if it had not failed. -/
theorem lifecycle_of_run_pair : ∃ d,
    ((pairHost busyAtFirst ready).run
      [.drive 0 .init, .deploy 0, .undeploy "/pair"]).deployment? 0 = some d ∧ d.state = .destroyed ∧
    initialized d.history = [⟨.servlet, "a"⟩, ⟨.servlet, "b"⟩] ∧
    destroyed d.history = (initialized d.history).reverse ∧ ¬ Repeats d.history := by
  have hshown : (((pairHost busyAtFirst ready).run
      [.drive 0 .init, .deploy 0, .undeploy "/pair"]).deployment? 0).map (fun d => (d.state, d.history))
        = some (.destroyed, [failed ⟨.servlet, "a"⟩, opened ⟨.servlet, "a"⟩, opened ⟨.servlet, "b"⟩,
            closed ⟨.servlet, "b"⟩, closed ⟨.servlet, "a"⟩]) := by decide +kernel
  have hpath : normalizeContextPath "/pair" = .ok "/pair" := rfl
  have hnames : ((pair busyAtFirst ready).map Servlet.name).Nodup := by decide
  have hbuilt := Blueprint.build_ofServlets hpath hnames
  have hadded : (pairHost busyAtFirst ready).deployment? 0
      = some (.ofApplication (.ofServlets "/pair" (pair busyAtFirst ready))) := rfl
  obtain ⟨d, hd, -, -, -, hrepeats, hdestroyed⟩ :=
    lifecycle_of_run hbuilt hadded [.drive 0 .init, .deploy 0, .undeploy "/pair"]
  rw [hd] at hshown
  obtain ⟨hstate, hhistory⟩ := Prod.mk.inj (Option.some.inj hshown)
  -- The one component that failed had none before it in its pass.
  have hwhole : ¬ Interrupted d.history := by
    rintro ⟨c, c', hpair⟩
    rw [hhistory] at hpair
    simp [List.cons_sublist_cons'] at hpair
  refine ⟨d, hd, hstate, by rw [hhistory]; rfl, (hdestroyed hstate).2 hwhole, fun hagain => ?_⟩
  obtain ⟨c, c', call, -, htriple⟩ := hrepeats.1 hagain
  exact hwhole ⟨c, c', (List.sublist_append_left [opened c, failed c'] [call]).trans htriple⟩

/-- The second servlet is `broken`: the first one is initialized again when this is tried anew, and is never destroyed
when the application is. -/
theorem initialized_again_and_never_destroyed :
    (∃ d, ((pairHost ready broken).run
        [.drive 0 .init, .drive 0 .init]).deployment? 0 = some d ∧ Repeats d.history) ∧
    ∃ d, ((pairHost ready broken).run
        [.drive 0 .init, .drive 0 .destroy]).deployment? 0 = some d ∧ d.state = .destroyed ∧
      initialized d.history = [⟨.servlet, "a"⟩] ∧ destroyed d.history = [] := by
  -- In the second pass `a` is initialized again, before `b` fails again.
  have hagain : (((pairHost ready broken).run
      [.drive 0 .init, .drive 0 .init]).deployment? 0).map Deployment.history
        = some [opened ⟨.servlet, "a"⟩, failed ⟨.servlet, "b"⟩,
            opened ⟨.servlet, "a"⟩, failed ⟨.servlet, "b"⟩] := by
    decide +kernel
  -- From `constructed`, to which the failure leads back, `destroy` calls nothing.
  have hnever : (((pairHost ready broken).run
      [.drive 0 .init, .drive 0 .destroy]).deployment? 0).map (fun d => (d.state, d.history))
        = some (.destroyed, [opened ⟨.servlet, "a"⟩, failed ⟨.servlet, "b"⟩]) := by
    decide +kernel
  obtain ⟨d, hd, hhistory⟩ := Option.map_eq_some_iff.1 hagain
  obtain ⟨d', hd', heq⟩ := Option.map_eq_some_iff.1 hnever
  obtain ⟨hstate, hhistory'⟩ := Prod.mk.inj heq
  refine ⟨⟨d, hd, ⟨.servlet, "a"⟩, true, ?_⟩, d', hd', hstate, ?_, ?_⟩
  · rw [hhistory]
    decide
  · rw [hhistory']
    rfl
  · rw [hhistory']
    rfl

end Host

end ServletContainer
