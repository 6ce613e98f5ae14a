import ServletContainer.Proofs.Host.Calls
import ServletContainer.Proofs.Host.Lookup

namespace ServletContainer

/-!
# What is published

However applications are published and taken back, a host publishes each under its own context path and only
while it is started.

* `Host.InService` — the invariant.
* `Host.InService.perform`, `Host.InService.run` — a call keeps it, and so does a run.
* `Host.published_of_run` — the table and the look-up after a run.
-/

namespace Host

/-- What `h` has published belongs to an application that has this context path and is `started`. -/
def InService (h : Host) : Prop :=
  ∀ c id, h.get? c = some id → ∃ d, h.deployment? id = some d ∧ d.app.contextPath = c ∧ d.state = .started

variable {h : Host} {calls : List Call} {id : AppId} {d : Deployment}

/-- A host that has published nothing is `InService`. -/
theorem inService_of_empty (hempty : h.published = .empty) : h.InService := by
  intro c id hc
  rw [get?, hempty] at hc
  cases hc

/-! ### Each call -/

section Step

variable {f : Deployment → Except ApplicationError Unit × Deployment}

/-- A step of a deployment that is not published keeps the host `InService`. -/
theorem InService.step (hs : h.InService) (hid : ¬ h.IsPublished id) : (h.step id f).2.InService := by
  intro c id' hc
  rw [get?, step_published] at hc
  obtain ⟨d, hd, hpath, hstate⟩ := hs c id' hc
  have hne : ¬ id' = id := fun heq => hid ⟨c, heq ▸ hc⟩
  exact ⟨d, by rw [deployment?_step, if_neg hne, hd], hpath, hstate⟩

end Step

/-- If the host is `InService` and nothing is published at its context path (`hfree`), an application is not published
at all. -/
theorem InService.not_isPublished (hs : h.InService) (hd : h.deployment? id = some d)
    (hfree : h.get? d.app.contextPath = none) : ¬ h.IsPublished id := by
  rintro ⟨c, hc⟩
  obtain ⟨d', hd', hpath, -⟩ := hs c id hc
  obtain rfl := Option.some.inj (hd.symm.trans hd')
  rw [hpath, hc] at hfree
  cases hfree

/-- `deploy` keeps the host `InService`: what it adds has been launched, and so is started. -/
theorem InService.deploy (hs : h.InService) (id : AppId) : (h.deploy id).2.InService := by
  rcases h.deploy_cases id with hsame | ⟨d, hd, hfree, ⟨e, hdeploy⟩ | ⟨hok, hdeploy⟩⟩
  · rwa [hsame]
  · rw [hdeploy]
    exact hs.step (hs.not_isPublished hd hfree)
  · rw [hdeploy]
    have hold := hs.step (f := launch) (hs.not_isPublished hd hfree)
    -- What `c` was published for before is another application, which `launch` has not touched.
    intro c id' hc
    simp only [get?, Table.get?_insert] at hc
    by_cases hpath : c = d.app.contextPath
    · rw [if_pos hpath] at hc
      obtain rfl := Option.some.inj hc
      refine ⟨(launch d).2, ?_, ?_, ?_⟩
      · show (h.step id launch).2.deployment? id = _
        rw [deployment?_step, if_pos rfl, hd, Option.map_some]
      · rw [(lives_launch d).app_eq, hpath]
      · exact state_of_launch (Prod.ext hok rfl)
    · rw [if_neg hpath] at hc
      exact hold c id' (by rwa [get?, step_published])

/-- Taking an entry out keeps a host `InService`. -/
theorem InService.erase (hs : h.InService) (c : String) :
    InService { h with published := h.published.erase c } := by
  intro c' id' hc'
  simp only [get?, Table.get?_erase] at hc'
  split at hc'
  · cases hc'
  · exact hs c' id' hc'

/-- In a host `InService` (`hs`), what is taken out is published nowhere else. -/
theorem InService.not_isPublished_erase (hs : h.InService) {c : String} (hc : h.get? c = some id) :
    ¬ IsPublished { h with published := h.published.erase c } id := by
  rintro ⟨c', hc'⟩
  simp only [get?, Table.get?_erase] at hc'
  split at hc'
  · cases hc'
  · next hne =>
    obtain ⟨d, hd, hpath, -⟩ := hs c id hc
    obtain ⟨d', hd', hpath', -⟩ := hs c' id hc'
    obtain rfl := Option.some.inj (hd.symm.trans hd')
    exact hne (hpath'.symm.trans hpath)

/-- So `undeploy` keeps it, as what it retires is not published any more. -/
theorem InService.undeploy (hs : h.InService) (c : String) : (h.undeploy c).2.InService := by
  cases hc : h.get? c with
  | none => rwa [undeploy_of_none hc]
  | some id =>
    rw [(undeploy_of_get? hc).1]
    exact (hs.erase c).step (hs.not_isPublished_erase hc)

/-- An `undeploy` of what is published succeeds: it is started, and what is started can be retired. -/
theorem InService.undeploy_fst (hs : h.InService) {c : String} (hc : h.get? c = some id) :
    (h.undeploy c).1 = .ok id := by
  obtain ⟨d, hd, -, hstate⟩ := hs c id hc
  have hretire : (Host.step { h with published := h.published.erase c } id retire).1 = .ok () :=
    (step_fst retire (h := { h with published := h.published.erase c }) hd).trans (retire_of_started hstate)
  rcases (undeploy_of_get? hc).2 with hok | ⟨e, he⟩
  · exact hok
  · rw [hretire] at he
    cases he

/-- `undeploy` answers with `id` if and only if `id` is published there. -/
theorem InService.undeploy_eq_ok_iff (hs : h.InService) {c : String} :
    (h.undeploy c).1 = .ok id ↔ h.get? c = some id := by
  refine ⟨fun hok => ?_, hs.undeploy_fst⟩
  cases hc : h.get? c with
  | none =>
    rw [undeploy_of_none hc] at hok
    cases hok
  | some id' => exact congrArg some (Except.ok.inj ((hs.undeploy_fst hc).symm.trans hok))

/-- `undeploy` answers with an error if and only if nothing is published there. -/
theorem InService.undeploy_eq_error_iff (hs : h.InService) {c : String} {e : RegistryError} :
    (h.undeploy c).1 = .error e ↔ h.get? c = none ∧ e = .notDeployed c := by
  cases hc : h.get? c with
  | none =>
    rw [undeploy_of_none hc]
    exact ⟨fun h => ⟨rfl, (Except.error.inj h).symm⟩, fun h => by rw [h.2]⟩
  | some id => simp [hs.undeploy_fst hc]

/-- So every call keeps the host `InService`, if it drives no published application by hand (`hc`). -/
theorem InService.perform (hs : h.InService) {c : Call} (hc : ∀ id s, c = .drive id s → ¬ h.IsPublished id) :
    (h.perform c).2.InService := by
  cases c with
  | drive id s => exact hs.step (hc id s rfl)
  | deploy id => exact hs.deploy id
  | undeploy c => exact hs.undeploy c

/-- A run that is `Governed` keeps the host `InService`, by induction on the calls. -/
theorem InService.run (hs : h.InService) (hcalls : h.Governed calls) : (h.run calls).InService := by
  induction calls generalizing h with
  | nil => exact hs
  | cons c calls ih => exact ih (hs.perform hcalls.1) hcalls.2

/-! ### Every run -/

/-- Every application of `h` has been built from a `Blueprint`. -/
def AllBuilt (h : Host) : Prop := ∀ id d, h.deployment? id = some d → ∃ b : Blueprint, b.build = .ok d.app

/-- Calls add no application and change none. -/
theorem AllBuilt.run (hbuilt : h.AllBuilt) (calls : List Call) : (h.run calls).AllBuilt := by
  intro id d' hd'
  have hlives := h.lives_run calls id
  rw [hd'] at hlives
  cases hd : h.deployment? id with
  | none =>
    rw [hd] at hlives
    cases hlives
  | some d =>
    rw [hd] at hlives
    cases hlives with
    | some hlives =>
      rw [hlives.app_eq]
      exact hbuilt id d hd

/-- So what is published is published at a path in normal form. -/
theorem InService.isNormalContextPath (hs : h.InService) (hbuilt : h.AllBuilt) {c : String}
    (hc : h.get? c ≠ none) :
    IsNormalContextPath c := by
  obtain ⟨id, hid⟩ := Option.ne_none_iff_exists'.1 hc
  obtain ⟨d, hd, rfl, -⟩ := hs c id hid
  obtain ⟨b, hb⟩ := hbuilt id d hd
  exact b.isNormalContextPath_of_build hb

/-- **What is published.** Start with any built applications (`hbuilt`), wherever they are in their lives and whichever
of their components fail to initialize, and with none published (`hempty`). However they are then published, taken back,
and, while not published, driven by hand (`Governed`):

* what is published is an application that has this context path and is started;
* a `deploy` that succeeds enters the application under its context path, where nothing was published, and an `undeploy`
  succeeds just where something is published, and takes it out; all other entries stay;
* a `deploy` or `undeploy` that fails leaves what is published as it was, and so does a step by hand;
* `find?` gives the application with the longest context path that `Claims` a path, and none if no published one claims
  it. -/
theorem published_of_run (hempty : h.published = .empty) (hbuilt : h.AllBuilt) (hcalls : h.Governed calls) :
    (∀ c id, (h.run calls).get? c = some id →
      ∃ d, (h.run calls).deployment? id = some d ∧ d.app.contextPath = c ∧ d.state = .started) ∧
    (∀ id d, (h.run calls).deployment? id = some d → ((h.run calls).deploy id).1 = .ok () →
      (h.run calls).get? d.app.contextPath = none ∧ ∀ c, ((h.run calls).deploy id).2.get? c
        = if c = d.app.contextPath then some id else (h.run calls).get? c) ∧
    (∀ c id, ((h.run calls).undeploy c).1 = .ok id ↔ (h.run calls).get? c = some id) ∧
    (∀ c id, ((h.run calls).undeploy c).1 = .ok id → ∀ c', ((h.run calls).undeploy c).2.get? c'
      = if c' = c then none else (h.run calls).get? c') ∧
    (∀ id s, ((h.run calls).perform (.drive id s)).2.published = (h.run calls).published) ∧
    (∀ id e, ((h.run calls).deploy id).1 = .error e →
      ((h.run calls).deploy id).2.published = (h.run calls).published) ∧
    (∀ c e, ((h.run calls).undeploy c).1 = .error e →
      ((h.run calls).undeploy c).2.published = (h.run calls).published) ∧
    (∀ path id, (h.run calls).find? path = some id ↔ ∃ c, (h.run calls).get? c = some id ∧ Claims c path ∧
      ∀ c', (h.run calls).get? c' ≠ none → Claims c' path → c'.length ≤ c.length) ∧
    (∀ path, (h.run calls).find? path = none ↔ ∀ c, (h.run calls).get? c ≠ none → ¬ Claims c path) := by
  have hs := (inService_of_empty hempty).run hcalls
  have hnormal := fun c hc => hs.isNormalContextPath (hbuilt.run calls) (c := c) hc
  have hundeploy : ∀ c id, ((h.run calls).undeploy c).1 = .ok id ↔ (h.run calls).get? c = some id :=
    fun c id => hs.undeploy_eq_ok_iff
  refine ⟨hs, fun id d hd hok => get?_deploy_of_ok hd hok, hundeploy,
    fun c id hok => get?_undeploy ((hundeploy c id).1 hok), fun id s => step_published _ _ id,
    fun id e he => deploy_published_of_error he, fun c e he => ?_, fun path id => ?_, fun path => ?_⟩
  · have hnone := (hs.undeploy_eq_error_iff.1 he).1
    rw [undeploy_of_none hnone]
  · exact find?_eq_some_iff hnormal
  · exact find?_eq_none_iff hnormal

/-! ### A shop -/

/-- A servlet that fails to initialize as `initFailure` tells. -/
def page (initFailure : Option ServletError) : Servlet := ⟨"page", .done (.ok ()), fun _ => initFailure, false⟩

/-- A shop, its cart, which cannot be initialized, the root, and a shop that is closed. -/
def shops : Host :=
  { start [] with
    deployments := [.ofApplication (.ofServlets "/shop" [page none]),
      .ofApplication (.ofServlets "/shop/cart" [page (some (.illegalState "no stock"))]),
      .ofApplication (.ofServlets "" [page none]),
      { Deployment.ofApplication (.ofServlets "/old" [page none]) with state := .stopped }] }

/-- The root is initialized by hand before all of `shops` are to be published, and it is taken back at the end. -/
def openShops : List Call :=
  [.drive 2 .init, .deploy 0, .deploy 1, .deploy 2, .undeploy "/none", .deploy 3, .undeploy ""]

/-- The cart cannot be initialized and is not published, nor is the shop that is closed. Once the root is taken back and
then the shop, nothing is published. -/
theorem published_of_run_shops :
    (shops.run openShops).published.keys = ["/shop"] ∧
    (∃ d, (shops.run openShops).deployment? 0 = some d ∧ d.app.contextPath = "/shop" ∧ d.state = .started) ∧
    (((shops.run (openShops.take 3)).deploy 2).1 = .ok () ∧
      ((shops.run (openShops.take 3)).deploy 2).2.get? "" = some 2 ∧
      ((shops.run (openShops.take 3)).deploy 2).2.get? "/shop" = some 0) ∧
    (((shops.run openShops).undeploy "/shop").1 = .ok 0 ∧
      ∀ c, ((shops.run openShops).undeploy "/shop").2.get? c = none) ∧
    ((shops.run openShops).deploy 1).1 = .error (.application (.init ⟨.servlet, "page"⟩ (.illegalState "no stock"))) ∧
    ((shops.run openShops).deploy 1).2.published = (shops.run openShops).published ∧
    ((shops.run openShops).undeploy "/old").2.published = (shops.run openShops).published ∧
    (∃ c, (shops.run openShops).get? c = some 0 ∧ Claims c "/shop//cart" ∧
      ∀ c', (shops.run openShops).get? c' ≠ none → Claims c' "/shop//cart" → c'.length ≤ c.length) := by
  have hbuilt : shops.AllBuilt := by
    intro id d hd
    have hmem := List.mem_of_getElem? hd
    simp only [shops, List.mem_cons, List.not_mem_nil, or_false] at hmem
    rcases hmem with rfl | rfl | rfl | rfl
    · exact ⟨_, Blueprint.build_ofServlets (show normalizeContextPath "/shop" = .ok _ from rfl) (by decide)⟩
    · exact ⟨_, Blueprint.build_ofServlets (show normalizeContextPath "/shop/cart" = .ok _ from rfl) (by decide)⟩
    · exact ⟨_, Blueprint.build_ofServlets (show normalizeContextPath "/" = .ok _ from rfl) (by decide)⟩
    · exact ⟨_, Blueprint.build_ofServlets (show normalizeContextPath "/old" = .ok _ from rfl) (by decide)⟩
  have hfirst : ∀ id s, Call.drive 2 .init = .drive id s → ¬ shops.IsPublished id := by
    rintro id s - ⟨c, hc⟩
    cases hc
  have hcalls : shops.Governed openShops := ⟨hfirst, nofun, nofun, nofun, nofun, nofun, nofun, trivial⟩
  have hsome : shops.Governed (openShops.take 3) := ⟨hfirst, nofun, nofun, trivial⟩
  obtain ⟨hlive, -, hundeployed, htaken, -, hdeploy, hundeploy, hfind, -⟩ := published_of_run rfl hbuilt hcalls
  obtain ⟨-, hentered, -⟩ := published_of_run rfl hbuilt hsome
  have hfails : ((shops.run openShops).deploy 1).1
      = .error (.application (.init ⟨.servlet, "page"⟩ (.illegalState "no stock"))) := by decide +kernel
  have hnone : ((shops.run openShops).undeploy "/old").1 = .error (.notDeployed "/old") := by decide +kernel
  have hshop : (shops.run openShops).get? "/shop" = some 0 := by decide +kernel
  have hkeys : (shops.run openShops).published.keys = ["/shop"] := by decide +kernel
  have hroot : ((shops.run (openShops.take 3)).deploy 2).1 = .ok () := by decide +kernel
  refine ⟨hkeys, hlive "/shop" 0 hshop, ⟨hroot, ?_, ?_⟩, ⟨(hundeployed _ _).2 hshop, fun c => ?_⟩, hfails,
    hdeploy 1 _ hfails, hundeploy "/old" _ hnone, (hfind "/shop//cart" 0).1 (by decide +kernel)⟩
  · exact (hentered 2 _ rfl hroot).2 ""
  · refine ((hentered 2 _ rfl hroot).2 "/shop").trans ?_
    decide +kernel
  · -- The entry of the shop, which is taken out, was the only one.
    rw [htaken _ _ ((hundeployed _ _).2 hshop) c]
    split
    · rfl
    · next hne =>
      by_contra hsome
      have hmem : c ∈ (shops.run openShops).published.keys :=
        (Table.contains_eq_true_iff _ c).1 (Option.isSome_iff_ne_none.2 hsome)
      rw [hkeys] at hmem
      exact hne (List.mem_singleton.1 hmem)

end Host

end ServletContainer
