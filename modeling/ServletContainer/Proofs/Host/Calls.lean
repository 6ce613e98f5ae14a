import Mathlib.Logic.Relation
import ServletContainer.Host

namespace ServletContainer

/-!
# Calls on a host

Applications are driven through their lives by hand, or by being published and taken back.

* `Host.Call`, `Host.perform`, `Host.run` — a call, what it answers and leaves, and a sequence of calls.
* `Host.Governed` — while an application is published, only the host drives its life.
* `Deployment.Lives` — what the steps of a life can make of a deployment.
* `Host.get?_deploy_of_ok`, `Host.get?_undeploy` — what publishing and taking back make of the table.
* `Host.lives_run` — whatever the calls, every deployment is left by steps of its own life.
-/

/-- A step of a `Deployment`'s life. -/
inductive LifecycleStep where
  | init
  | start
  | stop
  | destroy
  deriving DecidableEq, Repr

/-! ### The life of a deployment -/

namespace Deployment

/-- Takes a `LifecycleStep` of `d`, as far as its state allows it. -/
def take (d : Deployment) : LifecycleStep → Except ApplicationError Unit × Deployment
  | .init => d.init
  | .start => d.start
  | .stop => d.stop
  | .destroy => d.destroy

/-- One deployment is left of another by steps of its life, with `take`. -/
def Lives : Deployment → Deployment → Prop :=
  Relation.ReflTransGen fun d d' => ∃ s, d' = (d.take s).2

variable {d d' d'' : Deployment}

theorem Lives.refl (d : Deployment) : d.Lives d := Relation.ReflTransGen.refl

/-- `Lives` composes. -/
theorem Lives.trans (h : d.Lives d') (h' : d'.Lives d'') : d.Lives d'' := Relation.ReflTransGen.trans h h'

theorem Lives.take (d : Deployment) (s : LifecycleStep) : d.Lives (d.take s).2 := .single ⟨s, rfl⟩

/-- `move` changes the state only. -/
theorem move_app (d : Deployment) (sources : List LifecycleState) (target : LifecycleState) :
    (d.move sources target).2.app = d.app := by
  unfold move
  split <;> rfl

/-- So every step leaves the application as it is. -/
theorem take_app (d : Deployment) (s : LifecycleStep) : (d.take s).2.app = d.app := by
  cases s with
  | init =>
    simp only [take, init]
    split
    · split <;> rfl
    · rfl
  | start => exact d.move_app _ _
  | stop => exact d.move_app _ _
  -- Only the move changes the deployment, and it keeps the application.
  | destroy =>
    simp only [take, destroy]
    split
    · rfl
    · next hmove =>
      have happ := d.move_app [.constructed, .initialized, .stopped] .destroyed
      rw [hmove] at happ
      exact happ

/-- What `take` keeps, whatever the step, a life keeps. -/
theorem Lives.keeps {P : Deployment → Prop} (htake : ∀ {d} s, P d → P (d.take s).2) (h : d.Lives d') (hd : P d) :
    P d' := by
  induction h with
  | refl => exact hd
  | tail _ hstep ih =>
    obtain ⟨s, rfl⟩ := hstep
    exact htake s ih

theorem Lives.app_eq (h : d.Lives d') : d'.app = d.app :=
  h.keeps (P := fun d' => d'.app = d.app) (fun s ih => (take_app _ s).trans ih) rfl

end Deployment

namespace Host

/-! ### Bringing into service and taking out of it -/

section Launch

variable {d : Deployment} {f g : Deployment → Except ApplicationError Unit × Deployment}

/-- `stepFrom` does its step or nothing. -/
theorem lives_stepFrom (state : LifecycleState) (hf : ∀ d : Deployment, d.Lives (f d).2) (d : Deployment) :
    d.Lives (stepFrom state f d).2 := by
  unfold stepFrom
  split
  · exact hf d
  · exact .refl d

/-- `andThen` does both steps, or the first only. -/
theorem lives_andThen (hf : ∀ d : Deployment, d.Lives (f d).2) (hg : ∀ d : Deployment, d.Lives (g d).2)
    (d : Deployment) :
    d.Lives (andThen f g d).2 := by
  have hfirst := hf d
  unfold andThen
  split
  · next hd => rwa [hd] at hfirst
  · next hd =>
    rw [hd] at hfirst
    exact hfirst.trans (hg _)

/-- So `launch` is part of a life. -/
theorem lives_launch (d : Deployment) : d.Lives (launch d).2 := by
  unfold launch
  split
  · exact .refl d
  · exact lives_andThen (lives_stepFrom _ fun d => .take d .init) (lives_stepFrom _ fun d => .take d .start) d

/-- So is `retire`. -/
theorem lives_retire (d : Deployment) : d.Lives (retire d).2 :=
  lives_andThen (lives_stepFrom _ fun d => .take d .stop) (fun d => .take d .destroy) d

/-- Where `launch` succeeds, the application is `started`. -/
theorem state_of_launch {d' : Deployment} (h : launch d = (.ok (), d')) : d'.state = .started := by
  unfold launch at h
  split at h
  · cases h
  · next hstate =>
    simp only [andThen, stepFrom] at h
    -- From `constructed` and `initialized` the steps lead on; in every other state nothing is done, and only `started`
    -- is let pass.
    by_cases hc : d.state = .constructed
    · simp only [hc, if_true, Deployment.init] at h
      cases hall : Deployment.initAll d.app.components d.history with
      | mk result history =>
        cases result with
        | error e => simp [hall] at h
        | ok u =>
          simp only [hall, if_true, Deployment.start, Deployment.move, List.contains_cons, BEq.rfl,
            Bool.true_or] at h
          rw [← (Prod.mk.inj h).2]
    · simp only [hc, if_false] at h
      by_cases hi : d.state = .initialized
      · simp only [hi, if_true, Deployment.start, Deployment.move, List.contains_cons, BEq.rfl,
          Bool.true_or] at h
        rw [← (Prod.mk.inj h).2]
      · simp only [hi, if_false] at h
        obtain rfl := (Prod.mk.inj h).2
        cases hd : d.state <;> simp_all

/-- A started application (`h`) can be retired. -/
theorem retire_of_started (h : d.state = .started) : (retire d).1 = .ok () := by
  simp [retire, andThen, stepFrom, h, Deployment.stop, Deployment.destroy, Deployment.move]

/-- A started application (`h`) is `destroyed` when it is retired. -/
theorem state_retire_of_started (h : d.state = .started) : (retire d).2.state = .destroyed := by
  simp [retire, andThen, stepFrom, h, Deployment.stop, Deployment.destroy, Deployment.move]

end Launch

/-! ### Calls -/

/-- A call that drives the life of applications, or publishes them. -/
inductive Call where
  /-- Takes a step of an application's life by hand. -/
  | drive (id : AppId) (s : LifecycleStep)
  | deploy (id : AppId)
  | undeploy (contextPath : String)
  deriving DecidableEq, Repr

variable {h g : Host} {id : AppId} {d : Deployment}

/-- What a `Call` answers, and what it leaves of `h`. -/
def perform (h : Host) : Call → Except RegistryError Unit × Host
  | .drive id s =>
    let (result, h) := h.step id (·.take s)
    (result.mapError .application, h)
  | .deploy id => h.deploy id
  | .undeploy contextPath =>
    let (result, h) := h.undeploy contextPath
    (result.map fun _ => (), h)

/-- What `calls` in order leave of `h`. -/
def run (h : Host) (calls : List Call) : Host := calls.foldl (fun h c => (h.perform c).2) h

@[simp] theorem run_nil (h : Host) : h.run [] = h := rfl

@[simp] theorem run_cons (h : Host) (c : Call) (calls : List Call) :
    h.run (c :: calls) = (h.perform c).2.run calls := rfl

/-- Whether the application `id` is published under some path. -/
def IsPublished (h : Host) (id : AppId) : Prop := ∃ c, h.get? c = some id

/-- Whether none of the calls drives an application by hand while it `IsPublished`. -/
def Governed (h : Host) : List Call → Prop
  | [] => True
  | c :: calls => (∀ id s, c = .drive id s → ¬ h.IsPublished id) ∧ Governed (h.perform c).2 calls

/-! ### Steps within a host -/

/-- A host that does nothing lets its applications live. -/
theorem lives_refl (d? : Option Deployment) : Option.Rel Deployment.Lives d? d? := by
  cases d? with
  | none => exact .none
  | some d => exact .some (.refl d)

/-- As does one that does two things in order. -/
theorem lives_trans {d? d?' d?'' : Option Deployment} (h : Option.Rel Deployment.Lives d? d?')
    (h' : Option.Rel Deployment.Lives d?' d?'') : Option.Rel Deployment.Lives d? d?'' := by
  cases h with
  | none => exact h'
  | some h =>
    cases h' with
    | some h' => exact .some (h.trans h')

/-- `put` replaces one deployment, if it is there. -/
theorem deployment?_put (h : Host) (id id' : AppId) (d : Deployment) :
    (h.put id d).deployment? id' = if id' = id then (h.deployment? id').map fun _ => d else h.deployment? id' := by
  simp only [put, deployment?, List.getElem?_set]
  by_cases hid : id' = id
  · subst hid
    by_cases hlt : id' < h.deployments.length
    · simp [hlt]
    · simp [hlt]
  · have hne : ¬ id = id' := fun h => hid h.symm
    simp [hid, hne]

section Step

variable (f : Deployment → Except ApplicationError Unit × Deployment)

/-- `step` takes a step of one deployment, and leaves the others. -/
theorem deployment?_step (h : Host) (id id' : AppId) :
    (h.step id f).2.deployment? id' =
      if id' = id then (h.deployment? id').map fun d => (f d).2 else h.deployment? id' := by
  unfold step
  cases hd : h.deployment? id with
  | none =>
    by_cases hid : id' = id
    · simp [hid, hd]
    · simp [hid]
  | some d =>
    show (h.put id (f d).2).deployment? id' = _
    rw [deployment?_put]
    by_cases hid : id' = id
    · simp [hid, hd]
    · simp [hid]

/-- `step` leaves the table of what is published alone. -/
@[simp] theorem step_published (h : Host) (id : AppId) : (h.step id f).2.published = h.published := by
  unfold step
  split <;> rfl

theorem step_fst (hd : h.deployment? id = some d) : (h.step id f).1 = (f d).1 := by
  unfold step
  rw [hd]

/-- `step` lets applications live, if the step `f` does (`hf`). -/
theorem lives_step (hf : ∀ d : Deployment, d.Lives (f d).2) (h : Host) (id id' : AppId) :
    Option.Rel Deployment.Lives (h.deployment? id') ((h.step id f).2.deployment? id') := by
  rw [deployment?_step]
  cases h.deployment? id' with
  | none => simp
  | some d =>
    by_cases hid : id' = id
    · rw [if_pos hid]
      exact .some (hf d)
    · rw [if_neg hid]
      exact .some (.refl d)

end Step

/-! ### Publishing and taking back -/

/-- `deploy` is refused where something is published at the context path. Otherwise it is `launch`, and the application
is published if that succeeds. -/
theorem deploy_ways (hd : h.deployment? id = some d) :
    (h.get? d.app.contextPath ≠ none ∧ h.deploy id = (.error (.duplicateContext d.app.contextPath), h)) ∨
    h.get? d.app.contextPath = none ∧
      ((∃ e, (launch d).1 = .error e ∧ h.deploy id = (.error (.application e), (h.step id launch).2)) ∨
        (launch d).1 = .ok () ∧ h.deploy id =
          (.ok (), { (h.step id launch).2 with published := h.published.insert d.app.contextPath id })) := by
  unfold deploy
  rw [hd]
  by_cases htaken : h.published.contains d.app.contextPath = true
  · have hget : h.get? d.app.contextPath ≠ none := by
      rwa [get?, ← Option.isSome_iff_ne_none]
    exact .inl ⟨hget, if_pos htaken⟩
  · -- The context path is free, so it depends on `launch` alone.
    have hfree : h.get? d.app.contextPath = none := by
      simpa [get?, Table.contains] using htaken
    have hresult := h.step_fst launch hd
    have hpublished := h.step_published launch id
    simp only [htaken]
    refine .inr ⟨hfree, ?_⟩
    cases hstep : h.step id launch with
    | mk result h' =>
      rw [hstep] at hresult hpublished
      cases result with
      | error e => exact .inl ⟨e, hresult.symm, rfl⟩
      | ok u => exact .inr ⟨hresult.symm, by rw [← hpublished]; rfl⟩

/-- So where `deploy` changes anything, the application has been launched, and its path was free. -/
theorem deploy_cases (h : Host) (id : AppId) :
    (h.deploy id).2 = h ∨ ∃ d, h.deployment? id = some d ∧ h.get? d.app.contextPath = none ∧
      ((∃ e, h.deploy id = (.error (.application e), (h.step id launch).2)) ∨
        (launch d).1 = .ok () ∧ h.deploy id =
          (.ok (), { (h.step id launch).2 with published := h.published.insert d.app.contextPath id })) := by
  cases hd : h.deployment? id with
  | none =>
    refine .inl ?_
    unfold deploy
    rw [hd]
  | some d =>
    rcases deploy_ways hd with ⟨-, hsame⟩ | ⟨hfree, ⟨e, -, hfails⟩ | hok⟩
    · exact .inl (by rw [hsame])
    · exact .inr ⟨d, rfl, hfree, .inl ⟨e, hfails⟩⟩
    · exact .inr ⟨d, rfl, hfree, .inr hok⟩

/-- A `deploy` that fails leaves the table as it was. -/
theorem deploy_published_of_error {e : RegistryError} (he : (h.deploy id).1 = .error e) :
    (h.deploy id).2.published = h.published := by
  rcases h.deploy_cases id with hsame | ⟨d, -, -, ⟨e', hdeploy⟩ | ⟨-, hdeploy⟩⟩
  · rw [hsame]
  · rw [hdeploy, step_published]
  · rw [hdeploy] at he
    cases he

/-- An `undeploy` of what is published takes it out of the table, and is `retire` then. -/
theorem undeploy_of_get? {c : String} (hc : h.get? c = some id) :
    (h.undeploy c).2 = (step { h with published := h.published.erase c } id retire).2 ∧
      ((h.undeploy c).1 = .ok id ∨
        ∃ e, (step { h with published := h.published.erase c } id retire).1 = .error e) := by
  rw [get?] at hc
  simp only [undeploy, hc]
  cases step { h with published := h.published.erase c } id retire with
  | mk result h' =>
    cases result with
    | error e => exact ⟨rfl, .inr ⟨e, rfl⟩⟩
    | ok u => exact ⟨rfl, .inl rfl⟩

/-- An `undeploy` at a path where nothing is published is refused. -/
theorem undeploy_of_none {c : String} (hc : h.get? c = none) : h.undeploy c = (.error (.notDeployed c), h) := by
  rw [get?] at hc
  simp only [undeploy, hc]

/-- A `deploy` that succeeds enters the application under its context path, where nothing was published, and leaves every
other entry as it was. -/
theorem get?_deploy_of_ok (hd : h.deployment? id = some d) (hok : (h.deploy id).1 = .ok ()) :
    h.get? d.app.contextPath = none ∧
      ∀ c, (h.deploy id).2.get? c = if c = d.app.contextPath then some id else h.get? c := by
  rcases deploy_ways hd with ⟨-, hsame⟩ | ⟨hfree, ⟨e, -, hfails⟩ | ⟨-, hdeploy⟩⟩
  · rw [hsame] at hok
    cases hok
  · rw [hfails] at hok
    cases hok
  · refine ⟨hfree, fun c => ?_⟩
    rw [hdeploy]
    exact Table.get?_insert _ _ _ _

/-- An `undeploy` of what is published takes out this entry alone, also where the application cannot be retired. -/
theorem get?_undeploy {c : String} (hc : h.get? c = some id) (c' : String) :
    (h.undeploy c).2.get? c' = if c' = c then none else h.get? c' := by
  rw [(undeploy_of_get? hc).1, get?, step_published]
  exact Table.get?_erase _ _ _

/-! ### Every call -/

/-- Every call lets every application live, as one of its own steps or as none. -/
theorem lives_perform (h : Host) (c : Call) (id : AppId) :
    Option.Rel Deployment.Lives (h.deployment? id) ((h.perform c).2.deployment? id) := by
  have hrefl : Option.Rel Deployment.Lives (h.deployment? id) (h.deployment? id) := lives_refl _
  cases c with
  | drive id' s => exact lives_step _ (fun d => .take d s) h id' id
  | deploy id' =>
    -- Whether or not `launch` succeeds, it is made of steps.
    rcases h.deploy_cases id' with hsame | ⟨d', -, -, ⟨e, hdeploy⟩ | ⟨-, hdeploy⟩⟩
    · rwa [perform, hsame]
    · rw [perform, hdeploy]
      exact lives_step _ lives_launch h id' id
    · rw [perform, hdeploy]
      exact lives_step _ lives_launch h id' id
  | undeploy c =>
    simp only [perform]
    cases hc : h.get? c with
    | none => rwa [undeploy_of_none hc]
    | some id' =>
      rw [(undeploy_of_get? hc).1]
      exact lives_step _ lives_retire { h with published := h.published.erase c } id' id

/-- So no application comes or goes in a `run`, and each is left by steps of its own life. -/
theorem lives_run (h : Host) (calls : List Call) (id : AppId) :
    Option.Rel Deployment.Lives (h.deployment? id) ((h.run calls).deployment? id) := by
  induction calls generalizing h with
  | nil => exact lives_refl _
  | cons c calls ih => exact lives_trans (h.lives_perform c id) (ih (h.perform c).2)

end Host

end ServletContainer
