import ServletContainer.Proofs.Host.Published

namespace ServletContainer

/-!
# The texts of a context path

An application is published under the normal form of the text that it was built with, but looked up and taken back at a
text as it is. For all texts but one this is the same.

* `Host.AnswersTo` — what an application does that is known by a text: it is found there, and taken back.
* `Host.get?_perform_of_ne`, `Host.get?_run_of_not_mem` — a call keeps what is published unless it takes it back, and so
  does a run.
* `Host.answersTo_of_deploy` — what is published answers to the text that it was built with, unless this is a slash.
-/

namespace Host

variable {h : Host} {id : AppId} {d : Deployment} {c : String}

/-! ### Calls -/

/-- What `deploy` has published stands in the table under its context path. -/
theorem get?_deploy (hd : h.deployment? id = some d) (hok : (h.deploy id).1 = .ok ()) :
    (h.deploy id).2.get? d.app.contextPath = some id := by
  rcases deploy_ways hd with ⟨-, hdeploy⟩ | ⟨-, ⟨e, -, hdeploy⟩ | ⟨-, hdeploy⟩⟩
  · rw [hdeploy] at hok
    cases hok
  · rw [hdeploy] at hok
    cases hok
  · rw [hdeploy]
    exact Table.get?_insert_self _ _ _

/-- No call but `undeploy c` takes away what is published at `c`. -/
theorem get?_perform_of_ne (hc : h.get? c = some id) {call : Call} (hcall : call ≠ .undeploy c) :
    (h.perform call).2.get? c = some id := by
  cases call with
  | drive id' s =>
    show (h.step id' _).2.published.get? c = some id
    rw [step_published]
    exact hc
  | deploy id' =>
    show (h.deploy id').2.get? c = some id
    rcases h.deploy_cases id' with hsame | ⟨d, -, hfree, ⟨e, hdeploy⟩ | ⟨-, hdeploy⟩⟩
    · rwa [hsame]
    · rwa [hdeploy, get?, step_published]
    · -- The new entry is that of `d.app.contextPath`, where nothing was published.
      have hne : c ≠ d.app.contextPath := by
        rintro rfl
        rw [hfree] at hc
        cases hc
      rw [hdeploy]
      show (h.published.insert d.app.contextPath id').get? c = some id
      rwa [Table.get?_insert, if_neg hne]
  | undeploy c' =>
    show (h.undeploy c').2.get? c = some id
    have hne : c ≠ c' := fun heq => hcall (by rw [heq])
    cases hget : h.get? c' with
    | none => rwa [undeploy_of_none hget]
    | some id' =>
      rwa [get?_undeploy hget, if_neg hne]

/-- Nor does a run without this call. -/
theorem get?_run_of_not_mem {calls : List Call} (hc : h.get? c = some id) (hcalls : .undeploy c ∉ calls) :
    (h.run calls).get? c = some id := by
  induction calls generalizing h with
  | nil => exact hc
  | cons call calls ih =>
    rw [List.mem_cons, not_or] at hcalls
    exact ih (get?_perform_of_ne hc (Ne.symm hcalls.1)) hcalls.2

/-! ### Answering to a text -/

/-- Whether the application `id` is known by `path`: `get?` finds it there and `undeploy` takes it back, for good, so
that nothing is found there any more and whatever can be launched can be published in its place. -/
structure AnswersTo (h : Host) (id : AppId) (path : String) : Prop where
  found : h.get? path = some id
  taken : (h.undeploy path).1 = .ok id
  destroyed : ∃ d, (h.undeploy path).2.deployment? id = some d ∧ d.state = .destroyed
  gone : (h.undeploy path).2.get? path = none
  free : ∀ {id' d'}, (h.undeploy path).2.deployment? id' = some d' →
    normalizeContextPath path = .ok d'.app.contextPath → (launch d').1 = .ok () →
    ((h.undeploy path).2.deploy id').1 = .ok ()

/-- If the host is `InService`, what is published at a normal path `AnswersTo` it. -/
theorem InService.answersTo (hs : h.InService) (hc : h.get? c = some id) (hnormal : IsNormalContextPath c) :
    h.AnswersTo id c := by
  obtain ⟨d, hd, -, hstate⟩ := hs c id hc
  have hleft := (undeploy_of_get? hc).1
  have hgone : (h.undeploy c).2.get? c = none := by rw [get?_undeploy hc, if_pos rfl]
  refine ⟨hc, hs.undeploy_fst hc, ⟨(retire d).2, ?_, state_retire_of_started hstate⟩, hgone, ?_⟩
  · rw [hleft, deployment?_step, if_pos rfl]
    exact congrArg (Option.map fun d => (retire d).2) hd
  · intro id' d' hd' hpath hlaunch
    obtain rfl := Except.ok.inj ((normalizeContextPath_eq_ok_iff.2 (.inr ⟨rfl, hnormal⟩)).symm.trans hpath)
    rcases deploy_ways hd' with ⟨htaken, -⟩ | ⟨-, ⟨e, he, -⟩ | ⟨-, hdeploy⟩⟩
    · exact absurd hgone htaken
    · rw [hlaunch] at he
      cases he
    · rw [hdeploy]

/-- **Context paths.** Let `deploy` publish an application that was built from `b`, among others that were built, after
any governed calls (`before`), and let none of the `later` calls take it back at its context path. Then it `AnswersTo`
this path, and no application whose context path has the same normal form as that of `b` can be published. It
`AnswersTo` the text `b.contextPath`, if and only if this is not a slash: with a slash it is published as the root, but
neither found nor taken back at the slash. -/
theorem answersTo_of_deploy {before later : List Call} {b : Blueprint} (hempty : h.published = .empty)
    (hbuilt : h.AllBuilt) (hbefore : h.Governed before) (hd : (h.run before).deployment? id = some d)
    (hb : b.build = .ok d.app) (hdeploy : ((h.run before).deploy id).1 = .ok ())
    (hlater : ((h.run before).deploy id).2.Governed later) (hkept : .undeploy d.app.contextPath ∉ later) :
    let g := ((h.run before).deploy id).2.run later
    g.AnswersTo id d.app.contextPath ∧
    (g.AnswersTo id b.contextPath ↔ b.contextPath ≠ "/") ∧
    (b.contextPath = "/" → d.app.contextPath = "" ∧ g.get? "/" = none ∧
      g.undeploy "/" = (.error (.notDeployed "/"), g)) ∧
    ∀ id' d' (b' : Blueprint), g.deployment? id' = some d' → b'.build = .ok d'.app →
      normalizeContextPath b'.contextPath = normalizeContextPath b.contextPath →
      g.deploy id' = (.error (.duplicateContext d.app.contextPath), g) := by
  intro g
  have hs : g.InService := (((inService_of_empty hempty).run hbefore).deploy id).run hlater
  have hget : g.get? d.app.contextPath = some id := get?_run_of_not_mem (get?_deploy hd hdeploy) hkept
  have hpath := (Blueprint.exists_of_build hb).1
  have hanswers := hs.answersTo hget (b.isNormalContextPath_of_build hb)
  -- `"/"` is no `IsNormalContextPath`, so nothing is ever published there.
  have hslash : g.get? "/" = none := by
    by_contra hsome
    have hbuilt' : g.AllBuilt := ((hbuilt.run before).run [.deploy id]).run later
    exact (hs.isNormalContextPath hbuilt' hsome).ne_slash rfl
  refine ⟨hanswers, ⟨?_, ?_⟩, ?_, ?_⟩
  · rintro hat hroot
    have hfound := hat.found
    rw [hroot, hslash] at hfound
    cases hfound
  · intro hne
    obtain ⟨hroot, -⟩ | ⟨hsame, -⟩ := normalizeContextPath_eq_ok_iff.1 hpath
    · exact absurd hroot hne
    · rwa [hsame]
  · intro hroot
    rw [hroot] at hpath
    exact ⟨(Except.ok.inj hpath).symm, hslash, undeploy_of_none hslash⟩
  · intro id' d' b' hd' hb' hnormal
    have hsame : d.app.contextPath = d'.app.contextPath := by
      rw [(Blueprint.exists_of_build hb').1, hpath] at hnormal
      exact (Except.ok.inj hnormal).symm
    rcases deploy_ways hd' with ⟨-, hrefused⟩ | ⟨hfree, -⟩
    · rw [hrefused, hsame]
    · rw [← hsame, hget] at hfree
      cases hfree

/-- A shop, and the root. -/
def market : Host :=
  { start [] with
    deployments := [.ofApplication (.ofServlets "/shop" [page none]), .ofApplication (.ofServlets "" [page none])] }

/-- Shop and root are both published. The root was given as a slash, and stays where it is when this is taken back. -/
theorem answersTo_of_deploy_market :
    ((market.run [.deploy 1]).deploy 0).2.AnswersTo 0 "/shop" ∧
    ((market.run [.deploy 0]).deploy 1).1 = .ok () ∧
    (((market.run [.deploy 0]).deploy 1).2.run [.undeploy "/", .undeploy "/shop"]).AnswersTo 1 "" ∧
    (((market.run [.deploy 0]).deploy 1).2.run [.undeploy "/", .undeploy "/shop"]).get? "/" = none := by
  have hshop : (Blueprint.ofServlets "/shop" [page none]).build = .ok (.ofServlets "/shop" [page none]) :=
    Blueprint.build_ofServlets (show normalizeContextPath "/shop" = .ok _ from rfl) (by decide)
  have hroot : (Blueprint.ofServlets "/" [page none]).build = .ok (.ofServlets "" [page none]) :=
    Blueprint.build_ofServlets (show normalizeContextPath "/" = .ok _ from rfl) (by decide)
  have hbuilt : market.AllBuilt := by
    intro id d hd
    have hmem := List.mem_of_getElem? hd
    simp only [market, List.mem_cons, List.not_mem_nil, or_false] at hmem
    rcases hmem with rfl | rfl
    · exact ⟨_, hshop⟩
    · exact ⟨_, hroot⟩
  have hany (id : AppId) : market.Governed [.deploy id] := ⟨nofun, trivial⟩
  -- The shop is deployed second, with no calls behind it.
  have hshopListed : (market.run [.deploy 1]).deployment? 0 = some (.ofApplication (.ofServlets "/shop" [page none])) := rfl
  have hshopOpened : ((market.run [.deploy 1]).deploy 0).1 = .ok () := by decide +kernel
  have hdone : ((market.run [.deploy 1]).deploy 0).2.Governed [] := trivial
  obtain ⟨-, hat, -⟩ := answersTo_of_deploy rfl hbuilt (hany 1) hshopListed hshop hshopOpened hdone (by decide)
  -- The root is deployed second, and is to be undeployed at `"/"`.
  have hrootListed : (market.run [.deploy 0]).deployment? 1 = some (.ofApplication (.ofServlets "" [page none])) := rfl
  have hrootOpened : ((market.run [.deploy 0]).deploy 1).1 = .ok () := by decide +kernel
  have hcalls : ((market.run [.deploy 0]).deploy 1).2.Governed [.undeploy "/", .undeploy "/shop"] :=
    ⟨nofun, nofun, trivial⟩
  obtain ⟨hanswers, -, hslash, -⟩ :=
    answersTo_of_deploy rfl hbuilt (hany 0) hrootListed hroot hrootOpened hcalls (by decide)
  exact ⟨hat.2 (by decide), hrootOpened, hanswers, (hslash rfl).2.1⟩

/-- The root that was given as a slash serves every path, but is neither found nor taken back at the slash. -/
theorem not_answersTo_slash :
    (Blueprint.ofServlets "/" [page none]).build = .ok (.ofServlets "" [page none]) ∧
    (market.deployment? 1).map Deployment.app = some (.ofServlets "" [page none]) ∧
    (market.deploy 1).1 = .ok () ∧ (market.deploy 1).2.find? "/" = some 1 ∧ (market.deploy 1).2.get? "/" = none ∧
    ((market.deploy 1).2.undeploy "/").1 = .error (.notDeployed "/") := by
  refine ⟨Blueprint.build_ofServlets (show normalizeContextPath "/" = .ok _ from rfl) (by decide), rfl, ?_⟩
  decide +kernel

end Host

end ServletContainer
