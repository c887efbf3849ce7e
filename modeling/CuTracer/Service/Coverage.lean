import CuTracer.Service.Triage

/-! When a campaign is finished at triage. The decision depends on which results there
are and not on their order; it requires every sanitizer result to cover its scope, but
whether stress covered its trials is only asked where nothing is actionable. -/

namespace CuTracer.Service

/-! ### Finishing -/

theorem outcomeFor_eq_finish {i a r k c p : Prop} :
    outcomeFor i a r k c p = .finish ↔ ¬i ∧ (¬a ∧ c ∧ p ∨ a ∧ ¬r ∧ k ∧ c) := by
  unfold outcomeFor
  split_ifs <;> (simp_all; try tauto)

section

variable (search : String → String → Bool) (policy : TriagePolicy) (store : Baselines)
  (session : AnalysisSession)

/-- The evidence proves coverage: there is some initial result unless there is no result at
all, and every initial result covered its scope. -/
structure Proven (evidence : EvidenceBundle) : Prop where
  present : evidence.sanitizer ≠ [] ∨ evidence.stress ≠ [] ∨ evidence.results = []
  sanitizer : ∀ r ∈ evidence.sanitizer, Covered r
  stress : ∀ r ∈ evidence.stress, r.hasTrustworthyNonReproduction = true

/-- A stress result proves nothing, and nobody asks: stress did not reproduce the failure,
and all that the sanitizers report is known to the baselines of covered scopes. -/
structure Overlooks : Prop where
  unproven : ¬StressProven session
  quiet : session.evidence.stressReproduced = false
  reported : policy.kept search session ≠ [] ∨ activeSanitizerSignals session.evidence ≠ []
  baselines : policy.baselines = true
  known : policy.Known search store session
  covered : policy.ScopesCovered search session

variable {search policy store session}

theorem ScopesCovered.results (h : policy.ScopesCovered search session) :
    ∀ r ∈ session.evidence.sanitizer, Covered r := fun r hr =>
  ((h r.tool (.inl ⟨r, hr, .inl rfl⟩)).2 r hr).1 rfl

theorem mem_kept {f : FindingRecord} (h : f ∈ policy.kept search session) :
    ∃ r ∈ session.evidence.sanitizer, f ∈ r.findings := by
  rw [TriagePolicy.kept, keptFindings, kept_applyRules] at h
  obtain ⟨hf, -⟩ := List.mem_filter.mp h
  exact List.mem_flatMap.mp hf

/-- What is reported is a correctness signal, so the evidence is not without one. -/
theorem not_incomplete_of_reported
    (h : policy.kept search session ≠ [] ∨ activeSanitizerSignals session.evidence ≠ []) :
    ¬initialEvidenceRequiresInconclusive session.evidence = true := by
  have hsignal : hasCorrectnessSignal session.evidence = true := by
    rw [hasCorrectnessSignal, Bool.or_eq_true]
    left
    rw [List.any_eq_true]
    obtain h | h := h
    · obtain ⟨f, hf⟩ := List.exists_mem_of_ne_nil _ h
      obtain ⟨r, hr, hfr⟩ := mem_kept hf
      refine ⟨r, hr, ?_⟩
      have hne : r.findings.isEmpty = false := by
        rw [List.isEmpty_eq_false_iff]
        exact List.ne_nil_of_mem hfr
      simp [SanitizerSweepResult.hasPositiveSignal, hne]
    · obtain ⟨r, hr⟩ := List.exists_mem_of_ne_nil _ h
      obtain ⟨hr, hpositive⟩ := List.mem_filter.mp hr
      exact ⟨r, hr, (Bool.and_eq_true _ _ ▸ hpositive).1⟩
  simp [initialEvidenceRequiresInconclusive, hsignal]

theorem Overlooks.finish (h : Overlooks search policy store session) :
    (decideTriage search policy store session).outcome = .finish := by
  rw [decideTriage_outcome, outcomeFor_eq_finish]
  refine ⟨not_incomplete_of_reported h.reported, .inr ⟨?_, ?_, ⟨h.baselines, h.known⟩, h.covered⟩⟩
  · obtain hkept | hsignals := h.reported
    · exact .inl hkept
    · exact .inr (.inl hsignals)
  · rw [h.quiet]
    exact Bool.false_ne_true

/-- Without initial results the campaign is finished. -/
theorem finish_of_absent (hsanitizer : session.evidence.sanitizer = [])
    (hstress : session.evidence.stress = []) :
    (decideTriage search policy store session).outcome = .finish := by
  have hkept : policy.kept search session = [] := by
    rw [List.eq_nil_iff_forall_not_mem]
    intro f hf
    obtain ⟨r, hr, -⟩ := mem_kept hf
    rw [hsanitizer] at hr
    cases hr
  have hsignals : activeSanitizerSignals session.evidence = [] := by
    rw [activeSanitizerSignals, hsanitizer, List.filter_nil]
  have hquiet : session.evidence.stressReproduced = false := by
    rw [EvidenceBundle.stressReproduced, hstress, List.any_nil]
  rw [decideTriage_outcome, outcomeFor_eq_finish]
  refine ⟨?_, .inl ⟨(not_actionable search).mpr ⟨hkept, hsignals, hquiet⟩, ?_, ?_⟩⟩
  · simp [initialEvidenceRequiresInconclusive, hsanitizer, hstress]
  · rintro tool (⟨r, hr, -⟩ | ⟨key, source, -, ⟨f, hf, -⟩ | ⟨r, hr, -⟩⟩)
    · rw [hsanitizer] at hr
      cases hr
    · rw [hkept] at hf
      cases hf
    · rw [hsignals] at hr
      cases hr
  · intro r hr
    rw [hstress] at hr
    cases hr

/-! ### The order of the results -/

/-- The same initial results in another order. -/
structure Reordered (evidence evidence' : EvidenceBundle) : Prop where
  sanitizer : evidence.sanitizer.Perm evidence'.sanitizer
  stress : evidence.stress.Perm evidence'.stress

def CompleteIn (snapshot : TriageSnapshot) (tool : String) : Prop :=
  ∃ s ∈ snapshot.scopes, s.scope.tool = tool ∧ s.completeness = .complete

variable {evidence evidence' : EvidenceBundle}

variable (h : Reordered evidence evidence')

include h in
theorem Reordered.findings :
    evidence.findings.Perm evidence'.findings := h.sanitizer.flatMap_right _

include h in
theorem Reordered.kept (suppression : Option (List SuppressionRule)) (today : Option Date) :
    (keptFindings search evidence suppression today).Perm
      (keptFindings search evidence' suppression today) := by
  simp only [keptFindings, kept_applyRules]
  exact h.findings.filter _

include h in
theorem Reordered.signals :
    (activeSanitizerSignals evidence).Perm (activeSanitizerSignals evidence') := h.sanitizer.filter _

include h in
theorem Reordered.stressReproduced :
    evidence.stressReproduced = evidence'.stressReproduced := h.stress.any_eq

include h in
theorem Reordered.incomplete :
    initialEvidenceRequiresInconclusive evidence = initialEvidenceRequiresInconclusive evidence' := by
  simp only [initialEvidenceRequiresInconclusive, hasCorrectnessSignal,
    bothInitialSourcesAreTrustworthyClean, h.sanitizer.isEmpty_eq, h.stress.isEmpty_eq,
    h.sanitizer.any_eq, h.stress.any_eq, h.sanitizer.all_eq, h.stress.all_eq]

include h in
theorem Reordered.actionable (suppression : Option (List SuppressionRule)) (today : Option Date) :
    Actionable search evidence suppression today ↔ Actionable search evidence' suppression today := by
  have hkept : (keptFindings search evidence suppression today).Perm
      (keptFindings search evidence' suppression today) := h.kept suppression today
  have hkept' : keptFindings search evidence suppression today = [] ↔
      keptFindings search evidence' suppression today = [] :=
    ⟨fun hnil => (hnil ▸ hkept).nil_eq.symm, fun hnil => (hnil ▸ hkept).eq_nil⟩
  have hsignals : activeSanitizerSignals evidence = [] ↔ activeSanitizerSignals evidence' = [] :=
    ⟨fun hnil => (hnil ▸ h.signals).nil_eq.symm, fun hnil => (hnil ▸ h.signals).eq_nil⟩
  rw [Actionable, Actionable, Ne, Ne, hkept', hsignals, h.stressReproduced]

include h in
theorem Reordered.reports (tool key : String) :
    policy.Reports search { session with evidence } tool key ↔
      policy.Reports search { session with evidence := evidence' } tool key := by
  have hkept : ∀ f, f ∈ keptFindings search evidence policy.suppression policy.date ↔
      f ∈ keptFindings search evidence' policy.suppression policy.date := fun f =>
    (h.kept policy.suppression policy.date).mem_iff
  simp only [TriagePolicy.Reports, ScopeReports, Reported, TriagePolicy.kept, hkept,
    h.signals.mem_iff]

include h in
theorem Reordered.namesTool (tool : String) :
    NamesTool evidence.sanitizer tool ↔ NamesTool evidence'.sanitizer tool := by
  simp only [NamesTool, h.sanitizer.mem_iff]

include h in
theorem Reordered.coversTool (tool : String) :
    CoversTool evidence.sanitizer tool ↔ CoversTool evidence'.sanitizer tool := by
  simp only [CoversTool, h.sanitizer.mem_iff]

theorem decideTriage_snapshot : (decideTriage search policy store session).snapshot =
    triageSnapshot (policy.comparedWith store) session (policy.correlate search session) := by
  simp only [decideTriage, decideQuiet, decideActive]
  split_ifs <;> rfl

/-- The snapshot calls a tool complete where the results that name it cover it. -/
theorem completeIn_decideTriage (tool : String) :
    CompleteIn (decideTriage search policy store session).snapshot tool ↔
      NamesTool session.evidence.sanitizer tool ∧ CoversTool session.evidence.sanitizer tool := by
  rw [decideTriage_snapshot]
  constructor
  · rintro ⟨s, hs, rfl, hcomplete⟩
    obtain ⟨tool, -, rfl⟩ := List.mem_map.mp hs
    rw [scopeSnapshot_scope]
    exact (scopeSnapshot_completeness _).mp hcomplete
  · intro h
    have htool : tool ∈ snapshotTools session.evidence.sanitizer
        (policy.correlate search session).correlatedFindings :=
      (mem_snapshotTools search policy session).mpr (.inl h.1)
    refine ⟨_, List.mem_map.mpr ⟨tool, htool, rfl⟩, ?_, (scopeSnapshot_completeness _).mpr h⟩
    rw [scopeSnapshot_scope]

include h in
/-- Neither the outcome nor what is called complete depends on the order of the results. -/
theorem Reordered.decideTriage :
    (decideTriage search policy store { session with evidence }).outcome =
        (decideTriage search policy store { session with evidence := evidence' }).outcome ∧
      ∀ tool,
        CompleteIn (decideTriage search policy store { session with evidence }).snapshot tool ↔
          CompleteIn (decideTriage search policy store
            { session with evidence := evidence' }).snapshot tool := by
  constructor
  · have hreports : ∀ tool key, policy.Reports search { session with evidence } tool key ↔
        policy.Reports search { session with evidence := evidence' } tool key := h.reports
    have hstress : StressProven { session with evidence } ↔
        StressProven { session with evidence := evidence' } := by
      simp only [StressProven, h.stress.mem_iff]
    have hknown : policy.Known search store { session with evidence } ↔
        policy.Known search store { session with evidence := evidence' } := by
      simp only [TriagePolicy.Known, hreports]
    have hcovered : policy.ScopesCovered search { session with evidence } ↔
        policy.ScopesCovered search { session with evidence := evidence' } := by
      simp only [TriagePolicy.ScopesCovered, hreports, h.namesTool, h.coversTool]
    rw [decideTriage_outcome, decideTriage_outcome, hknown, hcovered, hstress, h.incomplete,
      h.actionable, h.stressReproduced]
  · intro tool
    rw [completeIn_decideTriage, completeIn_decideTriage]
    exact and_congr (h.namesTool tool) (h.coversTool tool)

/-! ### What a finish proves -/

/-- The campaign is only finished where its evidence proves coverage, and in whatever order
its results arrived. -/
def FinishesProven (search : String → String → Bool) (policy : TriagePolicy) (store : Baselines)
    (session : AnalysisSession) : Prop :=
  ((Service.decideTriage search policy store session).outcome = .finish → Proven session.evidence) ∧
    ∀ evidence', Reordered session.evidence evidence' →
      (Service.decideTriage search policy store session).outcome =
          (Service.decideTriage search policy store { session with evidence := evidence' }).outcome ∧
        ∀ tool, CompleteIn (Service.decideTriage search policy store session).snapshot tool ↔
          CompleteIn (Service.decideTriage search policy store
            { session with evidence := evidence' }).snapshot tool

/-- A finish is proven exactly where stress is not overlooked, and the evidence holds an
initial result or nothing. -/
theorem finishesProven_iff (search : String → String → Bool) (policy : TriagePolicy)
    (store : Baselines) (session : AnalysisSession) :
    FinishesProven search policy store session ↔
      ¬Overlooks search policy store session ∧
        (session.evidence.sanitizer ≠ [] ∨ session.evidence.stress ≠ [] ∨
          session.evidence.results = []) := by
  constructor
  · rintro ⟨hproven, -⟩
    constructor
    · intro h
      exact h.unproven (hproven h.finish).stress
    · by_contra hno
      rw [not_or, not_or, not_not, not_not] at hno
      exact (hproven (finish_of_absent hno.1 hno.2.1)).present.elim (fun h => h hno.1)
        fun h => h.elim (fun h => h hno.2.1) hno.2.2
  · rintro ⟨hoverlooks, hpresent⟩
    refine ⟨fun hfinish => ?_, fun evidence' h => h.decideTriage⟩
    rw [decideTriage_outcome, outcomeFor_eq_finish] at hfinish
    obtain ⟨-, ⟨-, hcovered, hstress⟩ | ⟨hactionable, hquiet, ⟨hbaselines, hknown⟩, hcovered⟩⟩ :=
      hfinish
    · exact ⟨hpresent, ScopesCovered.results hcovered, hstress⟩
    · refine ⟨hpresent, ScopesCovered.results hcovered, ?_⟩
      by_contra hunproven
      apply hoverlooks
      refine ⟨hunproven, Bool.eq_false_iff.mpr hquiet, ?_, hbaselines, hknown, hcovered⟩
      obtain hkept | hsignals | hstress := hactionable
      · exact .inl hkept
      · exact .inr hsignals
      · exact absurd hstress hquiet

end

def knownRace : FindingRecord where
  sourceTool := "compute_sanitizer/racecheck"
  errorType := "race"
  kernelName := some "add_kernel"
  source := none
  count := 1
  raw := ""
  errorDetail := ""

def raceProvenance : ExecutionProvenance := ⟨"r1", "sm_90", none, "", ""⟩

def raceResult : SanitizerSweepResult where
  experimentId := "sanitizer"
  executionStatus := .succeeded
  outcome := .finding
  tool := "racecheck"
  findings := [knownRace]
  provenance := raceProvenance
  log := none
  durationS := 0
  error := none
  summary := none
  completeness := .complete
  summaryIssues := []
  outputTruncated := false

/-- A stress run that stopped after one of three trials. -/
def brokenStress : StressTestResult where
  experimentId := "stress"
  executionStatus := .infraError
  outcome := .incomplete
  completedTrials := 1
  reproductions := 0
  infraErrors := 1
  provenance := raceProvenance
  triggeringConfig := none
  log := none
  durationS := 0
  error := none
  plannedTrials := 3
  timedOutTrials := 0
  completeness := .partialRun
  unattributedReproductions := 0
  rejectedConfigs := []

def raceUnit : WorkUnit where
  unitId := "unit"
  argv := []
  workload := ""
  testId := "test_add[1]"
  cwd := ""
  arch := "sm_90"
  sourceRevision := "r1"
  kernel := none
  oracle := none
  env := []
  kernelFilters := []

def raceSession : AnalysisSession where
  sessionId := "session"
  unit := raceUnit
  status := .waitingTriage
  evidence := { EvidenceBundle.empty with sanitizer := [raceResult], stress := [brokenStress] }
  budget := .default

/-- A policy that compares with baselines and hides nothing. -/
def comparingPolicy : TriagePolicy where
  baselines := true
  suppression := some []
  today := none
  recordBaselines := false
  records_dated := by simp

def raceBaselines : Baselines := fun scope =>
  if scope = ⟨"test_add", "racecheck"⟩ then
    some ⟨scope, ["add_kernel|race"], "r0", ⟨"2026-01-01", by decide +kernel⟩⟩
  else none

theorem finish_despite_stress :
    (decideTriage (fun _ _ => false) comparingPolicy raceBaselines raceSession).outcome = .finish ∧
      ¬∀ search policy store session, FinishesProven search policy store session := by
  have hfinish : (decideTriage (fun _ _ => false) comparingPolicy raceBaselines
      raceSession).outcome = .finish := by
    decide +kernel
  refine ⟨hfinish, fun h => ?_⟩
  have hstress := ((h _ _ _ _).1 hfinish).stress brokenStress (List.mem_singleton_self _)
  cases hstress

end CuTracer.Service
