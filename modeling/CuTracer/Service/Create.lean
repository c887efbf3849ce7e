import CuTracer.Service.Consistent

/-! New sessions are consistent, and so is every session of a run. -/

namespace CuTracer.Service

variable {h : Hashes} {sessionId : String} {unit : WorkUnit}

/-! ### The plan -/

structure ForCampaign (h : Hashes) (sessionId : String) (unit : WorkUnit) (spec : ExperimentSpec) :
    Prop where
  named : Named h sessionId 0 spec.experimentId
  phase : spec.phase = .initial
  roundIndex : spec.roundIndex = 0
  owner : spec.sessionId = sessionId ∧ spec.unit = unit

structure Submittable (h : Hashes) (sessionId : String) (unit : WorkUnit)
    (specs : List ExperimentSpec) : Prop where
  campaign : ∀ spec ∈ specs, ForCampaign h sessionId unit spec
  ids_nodup : (specs.map ExperimentSpec.experimentId).Nodup
  prints_nodup : (specs.map (experimentSpecFingerprint h)).Nodup

theorem Submittable.sublist {specs specs' : List ExperimentSpec}
    (hs : Submittable h sessionId unit specs) (hsub : specs'.Sublist specs) :
    Submittable h sessionId unit specs' :=
  ⟨fun spec hspec => hs.campaign spec (hsub.subset hspec), hs.ids_nodup.sublist (hsub.map _),
    hs.prints_nodup.sublist (hsub.map _)⟩

theorem Submittable.cons {specs : List ExperimentSpec} {spec : ExperimentSpec}
    (hs : Submittable h sessionId unit specs) (hspec : ForCampaign h sessionId unit spec)
    (hid : ∀ s ∈ specs, s.experimentId ≠ spec.experimentId)
    (hprint : ∀ s ∈ specs, experimentSpecFingerprint h s ≠ experimentSpecFingerprint h spec) :
    Submittable h sessionId unit (spec :: specs) where
  campaign s hmem := by
    rcases List.mem_cons.mp hmem with rfl | hmem
    · exact hspec
    · exact hs.campaign s hmem
  ids_nodup := by
    refine List.nodup_cons.mpr ⟨fun hmem => ?_, hs.ids_nodup⟩
    obtain ⟨s, hmem, heq⟩ := List.mem_map.mp hmem
    exact hid s hmem heq
  prints_nodup := by
    refine List.nodup_cons.mpr ⟨fun hmem => ?_, hs.prints_nodup⟩
    obtain ⟨s, hmem, heq⟩ := List.mem_map.mp hmem
    exact hprint s hmem heq

theorem forCampaign_sanitizer (tool : String) :
    ForCampaign h sessionId unit (initialSanitizer h sessionId unit tool) :=
  ⟨Or.inr ⟨.initial, 0, .computeSanitizer, tool, Nat.le_refl 0, rfl⟩, rfl, rfl, rfl, rfl⟩

theorem submittable_sanitizers (hideal : h.Ideal) (sessionId : String) (unit : WorkUnit)
    {tools : List String} (htools : tools.Nodup) :
    Submittable h sessionId unit (tools.map (initialSanitizer h sessionId unit)) := by
  refine ⟨?_, ?_, ?_⟩
  · intro spec hspec
    obtain ⟨tool, -, rfl⟩ := List.mem_map.mp hspec
    exact forCampaign_sanitizer tool
  · rw [List.map_map]
    refine htools.map fun a b heq => ?_
    exact (experimentId_inj hideal heq).2.2.2
  · rw [List.map_map]
    refine htools.map fun a b heq => ?_
    exact (fingerprint_inj heq).2

/-- The specs of a plan, in the order of submission up to the stress experiment. -/
theorem submittable_plan (hideal : h.Ideal) (sessionId : String) (unit : WorkUnit)
    (policy : InitialCampaignPolicy) :
    Submittable h sessionId unit (policy.plan h sessionId unit).experiments := by
  have hspecs := submittable_sanitizers hideal sessionId unit policy.nodup
  unfold InitialCampaignPolicy.plan
  dsimp only
  split
  · have hstress : Submittable h sessionId unit
        (initialStress h sessionId unit policy.stressOptions ::
          policy.sanitizerTools.map (initialSanitizer h sessionId unit)) := by
      refine hspecs.cons ⟨Or.inr ⟨_, _, _, _, Nat.le_refl 0, rfl⟩, rfl, rfl, rfl, rfl⟩ ?_ ?_
      · intro s hs heq
        obtain ⟨tool, -, rfl⟩ := List.mem_map.mp hs
        exact nomatch (experimentId_inj hideal heq).2.2.1
      · intro s hs heq
        obtain ⟨tool, -, rfl⟩ := List.mem_map.mp hs
        exact nomatch (fingerprint_inj heq).1
    have hperm := List.perm_append_singleton
      (initialStress h sessionId unit policy.stressOptions)
      (policy.sanitizerTools.map (initialSanitizer h sessionId unit))
    exact ⟨fun spec hspec => hstress.campaign spec (hperm.mem_iff.mp hspec),
      (hperm.map _).nodup_iff.mpr hstress.ids_nodup,
      (hperm.map _).nodup_iff.mpr hstress.prints_nodup⟩
  · split <;> exact hspecs

/-- A skipped experiment is none of the planned ones. -/
theorem skipped_not_planned (hideal : h.Ideal) (sessionId : String) (unit : WorkUnit)
    (policy : InitialCampaignPolicy) :
    ∀ r ∈ (policy.plan h sessionId unit).skippedResults,
      Named h sessionId 0 r.experimentId ∧
        r.experimentId ∉ (policy.plan h sessionId unit).experiments.map
          ExperimentSpec.experimentId := by
  unfold InitialCampaignPolicy.plan
  dsimp only
  split
  · exact fun r hr => nomatch hr
  · split
    · intro r hr
      obtain rfl := List.mem_singleton.mp hr
      refine ⟨Or.inr ⟨_, _, _, _, Nat.le_refl 0, rfl⟩, fun hmem => ?_⟩
      rw [List.map_map] at hmem
      obtain ⟨tool, -, heq⟩ := List.mem_map.mp hmem
      exact nomatch (experimentId_inj hideal heq).2.2.1
    · exact fun r hr => nomatch hr

/-! ### The initial campaign -/

/-- The planned specs so far are pending or completed, and the evidence is that of the
skipped experiments and the completed ones. -/
structure CampaignInv (base : List ExperimentResult) (done : List ExperimentSpec)
    (state : CampaignState) : Prop where
  pending : state.pending.Sublist done
  ids : ((state.pending.map ExperimentSpec.experimentId) ++ state.completedIds).Perm
    (done.map ExperimentSpec.experimentId)
  evidence : ∃ new, state.evidence.results.Perm (base ++ new) ∧
    new.map ExperimentResult.experimentId = state.completedIds

theorem projectTargetScopedSanitizerResult_experimentId (result : SanitizerSweepResult) (id : String)
    (kernel : KernelId) :
    (projectTargetScopedSanitizerResult result id kernel).experimentId = id := by
  unfold projectTargetScopedSanitizerResult
  dsimp only
  split_ifs <;> rfl

theorem planSpec_inv {base : List ExperimentResult} {done : List ExperimentSpec}
    {state state' : CampaignState} {kernel : Option KernelId} {spec : ExperimentSpec}
    (hinv : CampaignInv base done state) (hstep : planSpec kernel state spec = .ok state') :
    CampaignInv base (done ++ [spec]) state' := by
  unfold planSpec at hstep
  split at hstep
  · cases hstep
    refine ⟨hinv.pending.append (List.Sublist.refl _), ?_, hinv.evidence⟩
    simp only [List.map_append, List.map_singleton]
    have hcomm : ((state.pending.map ExperimentSpec.experimentId ++ [spec.experimentId]) ++
        state.completedIds).Perm ((state.pending.map ExperimentSpec.experimentId ++
          state.completedIds) ++ [spec.experimentId]) := by
      rw [List.append_assoc, List.append_assoc]
      exact List.perm_append_comm.append_left _
    exact hcomm.trans (hinv.ids.append_right _)
  · rename_i shared _
    split at hstep
    · exact nomatch hstep
    · rename_i kernel
      obtain ⟨-, -, hstep⟩ := bind_ok hstep
      cases hstep
      refine ⟨hinv.pending.trans (List.sublist_append_left _ _), ?_, ?_⟩
      · rw [← List.append_assoc, List.map_append, List.map_singleton]
        exact hinv.ids.append_right _
      · obtain ⟨new, hperm, hids⟩ := hinv.evidence
        refine ⟨new ++ [.sanitizer (projectTargetScopedSanitizerResult shared spec.experimentId
          kernel)], ?_, ?_⟩
        · rw [← List.append_assoc]
          exact (results_add _ _).trans (hperm.append_right _)
        · rw [List.map_append, List.map_singleton, hids]
          exact congrArg _ (congrArg (fun id => [id])
            (projectTargetScopedSanitizerResult_experimentId shared spec.experimentId kernel))

theorem initialCampaignState_inv {plan : CampaignPlan} {shared : List SanitizerSweepResult}
    {kernel : Option KernelId} {state : CampaignState}
    (hstate : initialCampaignState plan shared kernel = .ok state) :
    CampaignInv (plan.skippedResults.map .stress) plan.experiments state := by
  obtain ⟨shared', -, hstate⟩ := bind_ok hstate
  obtain ⟨state', hfold, hstate⟩ := bind_ok hstate
  obtain ⟨-, -, hstate⟩ := bind_ok hstate
  obtain rfl := Except.ok.inj hstate
  have hbase : ∀ (skipped : List StressTestResult) (e : EvidenceBundle),
      (skipped.foldl (fun e r => e.add (.stress r)) e).results.Perm
        (e.results ++ skipped.map .stress) := by
    intro skipped
    induction skipped with
    | nil => exact fun e => by simp
    | cons r rest ih =>
      intro e
      refine (ih (e.add (.stress r))).trans (((results_add e _).append_right _).trans ?_)
      rw [List.map_cons, List.append_assoc]
      rfl
  have hloop : ∀ (specs done : List ExperimentSpec) (s : CampaignState),
      CampaignInv (plan.skippedResults.map .stress) done s →
      specs.foldlM (planSpec kernel) s = .ok state' →
      CampaignInv (plan.skippedResults.map .stress) (done ++ specs) state' := by
    intro specs
    induction specs with
    | nil =>
      intro done s hs hfold
      cases hfold
      rwa [List.append_nil]
    | cons spec specs ih =>
      intro done s hs hfold
      rw [List.foldlM_cons] at hfold
      obtain ⟨s', hstep, hrest⟩ := bind_ok hfold
      have h := ih (done ++ [spec]) s' (planSpec_inv hs hstep) hrest
      rwa [List.append_assoc] at h
  refine hloop plan.experiments [] _ ⟨List.Sublist.refl _, List.Perm.refl _, [], ?_, rfl⟩ hfold
  simpa [EvidenceBundle.empty, EvidenceBundle.results] using
    hbase plan.skippedResults EvidenceBundle.empty

/-! ### New sessions -/

/-- The evidence of a campaign has one record of each completed experiment and none of a
pending one. -/
theorem CampaignInv.counts {base : List ExperimentResult} {specs : List ExperimentSpec}
    {state : CampaignState} (hinv : CampaignInv base specs state)
    (hnodup : (specs.map ExperimentSpec.experimentId).Nodup)
    (hbase : ∀ r ∈ base, r.experimentId ∉ specs.map ExperimentSpec.experimentId) :
    (state.pending.map ExperimentSpec.experimentId).Nodup ∧ state.completedIds.Nodup ∧
      (∀ id ∈ state.pending.map ExperimentSpec.experimentId, id ∉ state.completedIds) ∧
      (∀ id ∈ state.completedIds,
        state.evidence.results.countP (fun r => r.experimentId = id) = 1) ∧
      ∀ id ∈ state.pending.map ExperimentSpec.experimentId,
        state.evidence.results.countP (fun r => r.experimentId = id) = 0 := by
  have hall := hinv.ids.nodup_iff.mpr hnodup
  obtain ⟨hpending, hcompleted, hdisjoint⟩ := List.nodup_append.mp hall
  obtain ⟨new, hperm, hids⟩ := hinv.evidence
  have hcount : ∀ id ∈ specs.map ExperimentSpec.experimentId,
      state.evidence.results.countP (fun r => r.experimentId = id) = state.completedIds.count id := by
    intro id hid
    have hzero : base.countP (fun r => r.experimentId = id) = 0 := by
      refine List.countP_eq_zero.mpr fun r hr heq => hbase r hr ?_
      rwa [of_decide_eq_true heq]
    rw [hperm.countP_eq, List.countP_append, hzero, Nat.zero_add, ← hids, List.count, List.countP_map]
    rfl
  have hplanned : ∀ id, id ∈ state.pending.map ExperimentSpec.experimentId ∨
      id ∈ state.completedIds → id ∈ specs.map ExperimentSpec.experimentId := by
    intro id hid
    exact hinv.ids.mem_iff.mp (List.mem_append.mpr hid)
  refine ⟨hpending, hcompleted, fun id hp hc => hdisjoint id hp id hc rfl, ?_, ?_⟩
  · intro id hid
    rw [hcount id (hplanned id (Or.inr hid)), List.count_eq_one_of_mem hcompleted hid]
  · intro id hid
    rw [hcount id (hplanned id (Or.inl hid)), List.count_eq_zero]
    exact fun hc => hdisjoint id hid id hc rfl

theorem createSession_inv {budget : SessionBudget} {policy : InitialCampaignPolicy}
    {shared : List SanitizerSweepResult} {t : Transition} (hideal : h.Ideal)
    (hcreate : createSession h sessionId unit budget policy shared = .ok t) : Inv h t.session := by
  obtain ⟨-, -, hcreate⟩ := bind_ok hcreate
  obtain ⟨state, hstate, hcreate⟩ := bind_ok hcreate
  have hinv := initialCampaignState_inv hstate
  have hplan := submittable_plan hideal sessionId unit policy
  have hskipped := skipped_not_planned hideal sessionId unit policy
  have hbase : ∀ r ∈ (policy.plan h sessionId unit).skippedResults.map ExperimentResult.stress,
      Named h sessionId 0 r.experimentId ∧
        r.experimentId ∉ (policy.plan h sessionId unit).experiments.map
          ExperimentSpec.experimentId := by
    intro r hr
    obtain ⟨r', hr', rfl⟩ := List.mem_map.mp hr
    exact hskipped r' hr'
  obtain ⟨hpending, hcompleted, hdisjoint, hone, hzero⟩ :=
    hinv.counts hplan.ids_nodup fun r hr => (hbase r hr).2
  have hnamed : ∀ id, id ∈ state.pending.map ExperimentSpec.experimentId ∨
      id ∈ state.completedIds → Named h sessionId 0 id := by
    intro id hid
    obtain ⟨spec, hspec, rfl⟩ := List.mem_map.mp (hinv.ids.mem_iff.mp (List.mem_append.mpr hid))
    exact (hplan.campaign spec hspec).named
  have hevidence : ∀ r ∈ state.evidence.results, Named h sessionId 0 r.experimentId := by
    intro r hr
    obtain ⟨new, hperm, hids⟩ := hinv.evidence
    rcases List.mem_append.mp (hperm.mem_iff.mp hr) with hr | hr
    · exact (hbase r hr).1
    · refine hnamed _ (Or.inr ?_)
      rw [← hids]
      exact List.mem_map_of_mem hr
  have hsub := hplan.sublist hinv.pending
  split at hcreate
  · cases hcreate
    exact ⟨⟨List.nodup_nil, hcompleted, (fun _ hid => by cases hid), hone, Nat.zero_le _, rfl,
      List.nodup_nil, Nat.zero_le _, (fun _ hid => by cases hid), (fun _ hid => by cases hid),
      hevidence⟩, ⟨fun hne => absurd rfl hne, by simp [terminateInconclusive,
        SessionStatus.WaitsForExperiments]⟩, (fun _ hspec => by cases hspec)⟩
  · rename_i hbudget
    cases hcreate
    refine ⟨⟨hpending, hcompleted, hdisjoint, hone, Nat.le_of_not_lt hbudget, List.length_map _,
      hsub.prints_nodup, Nat.zero_le _, hzero, fun id hid => hnamed id (Or.inl hid), hevidence⟩,
      ?_, ?_⟩
    · show state.pending ≠ [] ↔ SessionStatus.WaitsForExperiments
        (if state.pending = [] then .waitingTriage else .waitingInitial)
      split_ifs with hnil <;> simp [SessionStatus.WaitsForExperiments, hnil]
    · intro spec hspec
      have hcampaign := hsub.campaign spec hspec
      have hne : state.pending ≠ [] := List.ne_nil_of_mem hspec
      refine ⟨hcampaign.owner.1, hcampaign.owner.2, fun _ => ⟨if_neg hne, hcampaign.roundIndex, rfl⟩,
        fun hfollowup => ?_⟩
      cases hcampaign.phase.symm.trans hfollowup

theorem submittable_discovery (hideal : h.Ideal) (sessionId : String) (unit : WorkUnit)
    (policy : InitialCampaignPolicy)
    (options : KernelDiscoveryOptions) :
    Submittable h sessionId unit (discoveryExperiments h sessionId unit policy options) := by
  have hplan := (submittable_plan hideal sessionId unit policy).sublist
    (List.filter_sublist (p := fun spec =>
      spec.kind = .computeSanitizer && spec.sanitizerTool.any isTargetScopedSanitizer))
  refine hplan.cons ⟨Or.inl rfl, rfl, rfl, rfl, rfl⟩ ?_ ?_
  · intro s hs heq
    have hkind : ∃ phase n kind d, s.experimentId = experimentId h sessionId phase n kind d := by
      have hmem := List.mem_of_mem_filter hs
      unfold InitialCampaignPolicy.plan at hmem
      dsimp only at hmem
      split at hmem
      · rcases List.mem_append.mp hmem with hmem | hmem
        · obtain ⟨tool, -, rfl⟩ := List.mem_map.mp hmem
          exact ⟨_, _, _, _, rfl⟩
        · rw [List.mem_singleton.mp hmem]
          exact ⟨_, _, _, _, rfl⟩
      · split at hmem <;>
          · obtain ⟨tool, -, rfl⟩ := List.mem_map.mp hmem
            exact ⟨_, _, _, _, rfl⟩
    obtain ⟨phase, n, kind, d, hid⟩ := hkind
    rw [hid] at heq
    exact experimentId_ne_discovery hideal _ _ _ _ heq
  · intro s hs heq
    have hkind : s.kind = .computeSanitizer := by
      have hand := List.of_mem_filter hs
      simp only [Bool.and_eq_true, decide_eq_true_eq] at hand
      exact hand.1
    unfold experimentSpecFingerprint at heq
    exact absurd (fingerprint_inj heq).1 (by simp [hkind, discoveryExperiment])

theorem createDiscoverySession_inv {budget : SessionBudget} {policy : InitialCampaignPolicy}
    {maxKernels : ℤ} {t : Transition} (hideal : h.Ideal)
    (hcreate : createDiscoverySession h sessionId unit budget policy maxKernels = .ok t) :
    Inv h t.session := by
  obtain ⟨-, -, hcreate⟩ := bind_ok hcreate
  obtain ⟨-, -, hcreate⟩ := bind_ok hcreate
  have hsub := submittable_discovery hideal sessionId unit policy ⟨maxKernels⟩
  dsimp only at hcreate
  split at hcreate
  · cases hcreate
    exact ⟨⟨List.nodup_nil, List.nodup_nil, (fun _ hid => by cases hid), (fun _ hid => by cases hid),
      Nat.zero_le _, rfl, List.nodup_nil, Nat.zero_le _, (fun _ hid => by cases hid),
      (fun _ hid => by cases hid), (fun _ hr => by cases hr)⟩,
      ⟨fun hne => absurd rfl hne, by simp [terminateInconclusive,
        SessionStatus.WaitsForExperiments]⟩, (fun _ hspec => by cases hspec)⟩
  · rename_i hbudget
    cases hcreate
    refine ⟨⟨hsub.ids_nodup, List.nodup_nil, (fun _ _ hid => by cases hid),
      (fun _ hid => by cases hid), Nat.le_of_not_lt hbudget, List.length_map _, hsub.prints_nodup,
      Nat.zero_le _, fun _ _ => rfl, ?_, (fun _ hr => by cases hr)⟩, ⟨fun _ => Or.inl rfl, fun _ => List.cons_ne_nil _ _⟩,
      ?_⟩
    · intro id hid
      obtain ⟨spec, hspec, rfl⟩ := List.mem_map.mp hid
      exact (hsub.campaign spec hspec).named
    · intro spec hspec
      have hcampaign := hsub.campaign spec hspec
      refine ⟨hcampaign.owner.1, hcampaign.owner.2, fun _ => ⟨rfl, hcampaign.roundIndex, rfl⟩,
        fun hfollowup => ?_⟩
      cases hcampaign.phase.symm.trans hfollowup

/-! ### Runs -/

variable {guard : ExperimentGuardPolicy}

theorem step_inv {s : AnalysisSession} {c : Command} {t : Transition} (hideal : h.Ideal)
    (hinv : Inv h s) (ht : step h guard s c = .ok t) : Inv h t.session := by
  have hsettled : t.session = s ∨ Settled s t.session → Inv h t.session := by
    rintro (heq | hs)
    · rw [heq]
      exact hinv
    · exact hinv.toCore.settled hs
  cases c with
  | experimentResult result => exact experimentResult_inv hinv ht
  | triageDecision decision => exact hsettled (Or.inr (triageDecision_settled hinv ht))
  | analysisDecision decision => exact analysisDecision_inv hideal hinv ht
  | discoveryChildrenStarted ids => exact hsettled (discoveryChildrenStarted_settled hinv ht)
  | infrastructureFailure reason => exact hsettled (infrastructureFailure_settled ht)
  | reportPublished artifact => exact hsettled (reportPublished_settled hinv ht)
  | reportPublicationFailed reason => exact hsettled (reportPublicationFailed_settled hinv ht)

theorem reachable_inv {s : AnalysisSession} (hideal : h.Ideal) (hs : Reachable h guard s) :
    Inv h s := by
  induction hs with
  | session create => exact createSession_inv hideal create
  | discovery create => exact createDiscoverySession_inv hideal create
  | step _ accepted ih => exact step_inv hideal ih accepted

/-- Every session of a run is consistent. -/
theorem reachable_consistent (h : Hashes) (hideal : h.Ideal) (guard : ExperimentGuardPolicy)
    (s : AnalysisSession) (hs : Reachable h guard s) : s.Consistent :=
  (reachable_inv hideal hs).consistent

/-- A pinned target without an oracle. -/
def vectorAdd : WorkUnit where
  unitId := "u1"
  argv := ["./vector_add"]
  workload := "vector_add"
  testId := "t1"
  cwd := "."
  arch := "sm_90"
  sourceRevision := "r1"
  kernel := some ⟨"vectorAdd", "c0ffee", none⟩
  oracle := none
  env := []
  kernelFilters := []

/-- `InitialCampaignPolicy(enable_stress=False)`. -/
def InitialCampaignPolicy.sanitizerOnly : InitialCampaignPolicy where
  sanitizerTools := ["racecheck"]
  stressOptions := StressOptions.default
  enableStress := false
  supported := InitialCampaignPolicy.default.supported
  nodup := InitialCampaignPolicy.default.nodup
  source := Or.inl (List.cons_ne_nil _ _)

/-- The digest of the only experiment of `vectorAdd` in session `s1`. -/
def racecheckDigest : Hashes :=
  oneDigest "s1:initial:0:compute_sanitizer:racecheck" "9fee3ebb6789edc0"

theorem racecheckDigest_ideal : racecheckDigest.Ideal :=
  oneDigest_ideal rfl rfl

/-- A race that racecheck found in `vectorAdd`. -/
def racecheckFinding : SanitizerSweepResult where
  experimentId := "exp-9fee3ebb6789edc0"
  executionStatus := .succeeded
  outcome := .finding
  tool := "racecheck"
  findings := [⟨"racecheck", "race-condition", some "vectorAdd", none, 1, "Race reported", ""⟩]
  provenance := ⟨"r1", "sm_90", vectorAdd.kernel, "", ""⟩
  log := some ⟨"log", "racecheck.log", none, none, "text/plain"⟩
  durationS := 0
  error := none
  summary := some ⟨1, 1, 0, "1 hazard", none⟩
  completeness := .complete
  summaryIssues := []
  outputTruncated := false

def raceReport : ExplainReport where
  rootCause := "missing barrier"
  raceClass := .raw
  confidence := .h
  isReproduced := false
  crossValidation := ⟨true, ""⟩
  evidenceSufficiency := .sufficient
  evidenceRefs := ["log"]
  recommendedAction := "add a barrier"
  rawAiOutput := ""

def raceDecision : AnalysisDecision := ⟨.final, "", some raceReport, []⟩

/-- A session that found a race, was triaged and reported, is consistent at the end of its run. -/
theorem racecheck_session_consistent : ∃ t t₁ t₂ t₃, createSession racecheckDigest "s1" vectorAdd
    SessionBudget.default InitialCampaignPolicy.sanitizerOnly [] = .ok t ∧
      step racecheckDigest .default t.session (.experimentResult (.sanitizer racecheckFinding)) = .ok t₁ ∧
      step racecheckDigest .default t₁.session (.triageDecision ⟨.analyze, "finding"⟩) = .ok t₂ ∧
      step racecheckDigest .default t₂.session (.analysisDecision raceDecision) = .ok t₃ ∧
      t₃.session.status = .completed ∧ t₃.session.Consistent := by
  obtain ⟨t, ht⟩ : ∃ t, createSession racecheckDigest "s1" vectorAdd SessionBudget.default
      InitialCampaignPolicy.sanitizerOnly [] = .ok t := ⟨_, rfl⟩
  obtain ⟨t₁, t₂, t₃, h₁, h₂, h₃, hcompleted⟩ : ∃ t₁ t₂ t₃,
      step racecheckDigest .default t.session (.experimentResult (.sanitizer racecheckFinding)) = .ok t₁ ∧
      step racecheckDigest .default t₁.session (.triageDecision ⟨.analyze, "finding"⟩) = .ok t₂ ∧
      step racecheckDigest .default t₂.session (.analysisDecision raceDecision) = .ok t₃ ∧
      t₃.session.status = .completed := by
    cases ht
    exact ⟨_, _, _, rfl, rfl, rfl, rfl⟩
  exact ⟨t, t₁, t₂, t₃, ht, h₁, h₂, h₃, hcompleted, reachable_consistent racecheckDigest
    racecheckDigest_ideal ExperimentGuardPolicy.default t₃.session
    (.step (.step (.step (.session ht) h₁) h₂) h₃)⟩

end CuTracer.Service
