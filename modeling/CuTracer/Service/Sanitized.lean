import CuTracer.ComputeSanitizer.Parser
import CuTracer.Service.Create
import Mathlib.Algebra.GroupWithZero.Nat
import Mathlib.Algebra.Ring.Int.Defs

/-! Evidence of a sanitizer, from its log to the sessions of single kernels. A result never looks
cleaner or more complete than the log: it passes the checks of the session, and so does its
projection onto a kernel. -/

namespace CuTracer.Service

open ComputeSanitizer (CharTable CheckerTool CheckerIssue CheckerParseResult
  RacecheckParseDiagnostic Text parseCheckerLog startsWith)

/-! ### From the log to a result -/

def errorTypePrefixes : List (String × String) :=
  [("Potential invalid __shared__", "invalid-shared-access"),
    ("Invalid __shared__", "invalid-shared-access"),
    ("Uninitialized ", "uninitialized-read"),
    ("Race reported", "race-condition"),
    ("Barrier error detected", "barrier-error"),
    ("Invalid ", "invalid-memory-access"),
    ("Out of bounds ", "invalid-memory-access"),
    ("Misaligned ", "misaligned-access"),
    ("Program hit ", "hardware-exception"),
    ("Leaked ", "memory-leak")]

def classifyErrorType (message : Text) : String :=
  match errorTypePrefixes.find? fun entry => startsWith entry.1 message with
  | some entry => entry.2
  | none => "unclassified"

structure CheckerEvidence where
  findings : List FindingRecord
  summary : Option SanitizerSummary
  completeness : ResultCompleteness
  issues : List String
  outputTruncated : Bool

def toFinding (tool : CheckerTool) (issue : CheckerIssue) : FindingRecord where
  sourceTool := "compute_sanitizer/" ++ tool.value
  errorType := classifyErrorType issue.message
  errorDetail := String.ofList issue.message
  kernelName := issue.primarySite.map fun site => String.ofList site.symbol
  source := issue.primarySite.bind fun site =>
    match site.file, site.line with
    | some file, some line => some ⟨String.ofList file, line⟩
    | _, _ => none
  count := match issue.hazards with
    | some hazards => hazards
    | none => 1
  raw := String.ofList issue.rawBlock

def sanitizerSummary (s : ComputeSanitizer.CheckerSummary) : SanitizerSummary :=
  ⟨s.totalHazards, s.errors, s.warnings, String.ofList s.raw, s.notPrinted.map Int.ofNat⟩

def evidenceOf (tool : CheckerTool) (parsed : CheckerParseResult) : CheckerEvidence where
  findings := parsed.issues.map (toFinding tool)
  summary := parsed.summary.map sanitizerSummary
  completeness := if parsed.isComplete then .complete else .partialRun
  issues := parsed.diagnostics.map RacecheckParseDiagnostic.value
  outputTruncated := parsed.outputTruncated

/-- `CheckerTool(tool)`. -/
def checkerTool? (tool : String) : Option CheckerTool :=
  [CheckerTool.initcheck, .memcheck, .racecheck, .synccheck].find? fun t => t.value = tool

section Build

variable (u : CharTable)

def parseCheckerEvidence (tool : CheckerTool) (text : Text) : CheckerEvidence :=
  evidenceOf tool (parseCheckerLog u tool text)

/-- `_checker_evidence`: an unrecognised tool cannot prove anything about the run. -/
def checkerEvidence (tool : String) (logText : Text) : CheckerEvidence :=
  match checkerTool? tool with
  | some tool => parseCheckerEvidence u tool logText
  | none => ⟨[], none, .unknown, ["unsupported_sanitizer_tool"], false⟩

def sanitizerOutcome (evidence : CheckerEvidence) (executionStatus : ExecutionStatus)
    (log : Option ArtifactRef) : SanitizerOutcome :=
  if evidence.completeness ≠ .complete then .unknown
  else if evidence.summary.any SanitizerSummary.isPositive then .finding
  else if executionStatus = .succeeded ∧ log.isSome then .clean
  else .unknown

def internalToolError : String := "Compute Sanitizer reported an internal tool error"

def sanitizerResult (spec : ExperimentSpec) (tool : String) (evidence : CheckerEvidence)
    (executionStatus : ExecutionStatus) (log : Option ArtifactRef) (durationS : ℚ)
    (error : Option String) (provenance : Option ExecutionProvenance) : SanitizerSweepResult :=
  let broken := evidence.issues.contains RacecheckParseDiagnostic.internalToolError.value
  let executionStatus := if broken then .infraError else executionStatus
  { experimentId := spec.experimentId
    executionStatus := executionStatus
    outcome := sanitizerOutcome evidence executionStatus log
    tool := tool
    findings := evidence.findings
    provenance := provenance.getD ⟨spec.unit.sourceRevision, spec.unit.arch, spec.unit.kernel, "", ""⟩
    log := log
    durationS := durationS
    error :=
      if broken then
        some (match error with
          | none => internalToolError
          | some error => error ++ "; " ++ internalToolError)
      else error
    summary := evidence.summary
    completeness := evidence.completeness
    summaryIssues := evidence.issues
    outputTruncated := evidence.outputTruncated }

def buildSanitizerResult (spec : ExperimentSpec) (executionStatus : ExecutionStatus) (logText : Text)
    (log : Option ArtifactRef) (durationS : ℚ) (error : Option String)
    (provenance : Option ExecutionProvenance) : Except ServiceError SanitizerSweepResult :=
  match spec.sanitizerTool with
  | none => .error (.value "sanitizer experiment requires a sanitizer_tool" [])
  | some tool =>
    let result := sanitizerResult spec tool (checkerEvidence u tool logText) executionStatus log
      durationS error provenance
    match spec.unit.kernel with
    | none => .ok result
    | some kernel =>
      if isTargetScopedSanitizer tool then
        .ok (projectTargetScopedSanitizerResult result spec.experimentId kernel)
      else .ok result

end Build

/-! ### Consistency -/

/-- What the session checks of a result, whatever the spec. -/
structure SanitizerSweepResult.Consistent (r : SanitizerSweepResult) : Prop where
  finding : r.outcome = .finding → r.findings ≠ [] ∨ r.summary.any SanitizerSummary.isPositive = true
  clean : r.outcome = .clean → r.hasTrustworthyClean = true
  complete : r.completeness = .complete → r.summaryIssues = []
  not_early : r.completeness ≠ .completeEarly

variable {r : SanitizerSweepResult}

theorem SanitizerSweepResult.Consistent.validate {spec : ExperimentSpec} (h : r.Consistent)
    (htool : spec.sanitizerTool = some r.tool) : validateSanitizerResult spec r = .ok () := by
  have hfinding : (r.outcome = .finding &&
      !(!r.findings.isEmpty || r.summary.any SanitizerSummary.isPositive)) = false := by
    by_cases hout : r.outcome = .finding
    · rcases h.finding hout with hne | hpos
      · simp [hne]
      · simp [hpos]
    · simp [hout]
  have hclean : (r.outcome = .clean && !r.hasTrustworthyClean) = false := by
    by_cases hout : r.outcome = .clean
    · simp [h.clean hout]
    · simp [hout]
  have hcomplete : (r.completeness = .complete && !r.summaryIssues.isEmpty) = false := by
    by_cases hout : r.completeness = .complete
    · simp [h.complete hout]
    · simp [hout]
  unfold validateSanitizerResult
  simp only [htool, hfinding, hclean, hcomplete, h.not_early, rejectIf]
  simp [bind, Except.bind]

/-- A result that is consistent and made where the spec says. -/
theorem SanitizerSweepResult.Consistent.accepted {spec : ExperimentSpec} (h : r.Consistent)
    (hkind : spec.kind = .computeSanitizer) (htool : spec.sanitizerTool = some r.tool)
    (hrevision : r.provenance.sourceRevision = spec.unit.sourceRevision)
    (harch : r.provenance.arch = spec.unit.arch)
    (hkernel : r.provenance.kernel = spec.unit.kernel) :
    validateResultAgainstSpec spec (.sanitizer r) = .ok () := by
  have hprovenance : validateProvenance spec (.sanitizer r) = .ok () := by
    unfold validateProvenance
    simp only [ExperimentResult.provenance, hrevision, harch, hkernel, rejectIf]
    cases spec.unit.kernel <;> simp [bind, Except.bind]
  unfold validateResultAgainstSpec
  rw [hprovenance]
  simp only [ExperimentResult.kind, expectedTypeMatches, validatePayload, hkind, rejectIf, h.validate htool]
  simp [bind, Except.bind]

/-! ### Results of logs -/

/-- What evidence is of a log: it is complete without issues only, and then a summary of nothing
comes with no finding. -/
structure CheckerEvidence.Honest (e : CheckerEvidence) : Prop where
  summary : e.completeness = .complete → e.summary.isSome = true
  issues : e.completeness = .complete → e.issues = []
  not_early : e.completeness ≠ .completeEarly
  counts : ∀ s, e.summary = some s → s.isPositive = false → s.isZero = true
  findings : e.completeness = .complete → e.summary.any SanitizerSummary.isZero = true → e.findings = []

theorem sanitizerSummary_isZero (s : ComputeSanitizer.CheckerSummary) :
    (sanitizerSummary s).isZero = s.isZero := by
  rw [Bool.eq_iff_iff, ComputeSanitizer.CheckerSummary.isZero_iff]
  simp [sanitizerSummary, SanitizerSummary.isZero]
  tauto

theorem sanitizerSummary_isPositive (s : ComputeSanitizer.CheckerSummary) :
    (sanitizerSummary s).isPositive = s.isPositive := by
  rw [Bool.eq_iff_iff]
  simp [sanitizerSummary, SanitizerSummary.isPositive,
    ComputeSanitizer.CheckerSummary.isPositive]
  tauto

theorem evidenceOf_honest (tool : CheckerTool) {parsed : CheckerParseResult} (h : parsed.Quiet) :
    (evidenceOf tool parsed).Honest := by
  have hcomplete : (evidenceOf tool parsed).completeness = .complete → parsed.isComplete = true := by
    intro heq
    by_contra hnot
    simp [evidenceOf, hnot] at heq
  refine ⟨fun heq => ?_, fun heq => ?_, ?_, fun s hs hpos => ?_, fun heq hzero => ?_⟩
  · simpa [evidenceOf] using (Bool.and_eq_true_iff.mp (hcomplete heq)).1
  · simpa [evidenceOf] using (Bool.and_eq_true_iff.mp (hcomplete heq)).2
  · unfold evidenceOf
    dsimp only
    split_ifs <;> simp
  · obtain ⟨summary, -, rfl⟩ := Option.map_eq_some_iff.mp hs
    rw [sanitizerSummary_isPositive] at hpos
    rw [sanitizerSummary_isZero, ComputeSanitizer.CheckerSummary.isZero, hpos]
    rfl
  · refine List.map_eq_nil_iff.mpr (h (hcomplete heq) ?_)
    cases hsummary : parsed.summary with
    | none => simp [evidenceOf, hsummary] at hzero
    | some summary => simpa [evidenceOf, hsummary, sanitizerSummary_isZero] using hzero

theorem checkerEvidence_honest (u : CharTable) (tool : String) (logText : Text) :
    (checkerEvidence u tool logText).Honest := by
  unfold checkerEvidence
  cases checkerTool? tool with
  | some tool => exact evidenceOf_honest tool (ComputeSanitizer.parseCheckerLog_quiet tool logText)
  | none => constructor <;> simp

/-- An unrecognised tool has no complete evidence. -/
theorem supported_of_complete {u : CharTable} {tool : String} {logText : Text}
    (h : (checkerEvidence u tool logText).completeness = .complete) :
    ["initcheck", "memcheck", "racecheck", "synccheck"].contains tool = true := by
  unfold checkerEvidence at h
  cases htool : checkerTool? tool with
  | none =>
    rw [htool] at h
    cases h
  | some t =>
    obtain rfl : t.value = tool := by simpa using List.find?_some htool
    cases t <;> decide

theorem sanitizerOutcome_eq_clean {e : CheckerEvidence} {executionStatus : ExecutionStatus}
    {log : Option ArtifactRef} (h : sanitizerOutcome e executionStatus log = .clean) :
    e.completeness = .complete ∧ e.summary.any SanitizerSummary.isPositive = false ∧
      executionStatus = .succeeded := by
  unfold sanitizerOutcome at h
  split_ifs at h with hcomplete hpositive hran
  exact ⟨not_not.mp hcomplete, Bool.eq_false_iff.mpr hpositive, hran.1⟩

theorem sanitizerOutcome_eq_finding {e : CheckerEvidence} {executionStatus : ExecutionStatus}
    {log : Option ArtifactRef} (h : sanitizerOutcome e executionStatus log = .finding) :
    e.summary.any SanitizerSummary.isPositive = true := by
  unfold sanitizerOutcome at h
  split_ifs at h with hcomplete hpositive
  exact hpositive

/-- A clean outcome has a complete summary of nothing, and no findings. -/
theorem sanitizerResult_consistent (u : CharTable) (spec : ExperimentSpec) (tool : String) (logText : Text)
    (executionStatus : ExecutionStatus) (log : Option ArtifactRef) (durationS : ℚ)
    (error : Option String) (provenance : Option ExecutionProvenance) :
    (sanitizerResult spec tool (checkerEvidence u tool logText) executionStatus log durationS error
      provenance).Consistent := by
  have hhonest := checkerEvidence_honest u tool logText
  refine ⟨fun hout => .inr (sanitizerOutcome_eq_finding hout), fun hout => ?_, hhonest.issues,
    hhonest.not_early⟩
  obtain ⟨hcomplete, hpositive, hran⟩ := sanitizerOutcome_eq_clean hout
  have hissues := hhonest.issues hcomplete
  rw [hissues] at hran
  have hran : executionStatus = .succeeded := hran
  have hzero : (checkerEvidence u tool logText).summary.any SanitizerSummary.isZero = true := by
    obtain ⟨summary, hsummary⟩ := Option.isSome_iff_exists.mp (hhonest.summary hcomplete)
    rw [hsummary] at hpositive ⊢
    exact hhonest.counts summary hsummary hpositive
  unfold SanitizerSweepResult.hasTrustworthyClean
  rw [hout]
  simp only [sanitizerResult, hran, hcomplete, hissues, hzero, hhonest.findings hcomplete hzero,
    supported_of_complete hcomplete]
  rfl

/-! ### Projections -/

def findingsOf (kernel : KernelId) (findings : List FindingRecord) : List FindingRecord :=
  (findings.filter fun f => matchesKernel f kernel).map fun f => { f with kernelName := some kernel.name }

/-- All findings name the kernel, and their counts add up to the errors of the summary. -/
def SanitizerSweepResult.Attributed (r : SanitizerSweepResult) (kernel : KernelId) : Prop :=
  (∀ f ∈ r.findings, matchesKernel f kernel = true) ∧
    ∃ summary, r.summary = some summary ∧ summary.errors = (r.findings.map FindingRecord.count).sum

/-- How a result comes out on a kernel: as it is, where it has no positive signal or all of it is
the kernel's; or of no outcome. -/
theorem project_cases (r : SanitizerSweepResult) (id : String) (kernel : KernelId) :
    (r.hasPositiveSignal = false ∧ projectTargetScopedSanitizerResult r id kernel =
      { r with experimentId := id, provenance := { r.provenance with kernel := some kernel } }) ∨
    (r.hasPositiveSignal = true ∧ r.Attributed kernel ∧ findingsOf kernel r.findings ≠ [] ∧
      projectTargetScopedSanitizerResult r id kernel =
        { r with
          experimentId := id
          findings := findingsOf kernel r.findings
          provenance := { r.provenance with kernel := some kernel } }) ∨
    (r.hasPositiveSignal = true ∧ ∃ issues, projectTargetScopedSanitizerResult r id kernel =
      { r with
        experimentId := id
        outcome := .unknown
        findings := findingsOf kernel r.findings
        provenance := { r.provenance with kernel := some kernel }
        summary := none
        completeness := .partialRun
        summaryIssues := issues }) := by
  unfold projectTargetScopedSanitizerResult
  dsimp only
  split
  next hpositive => exact .inl ⟨by simpa using hpositive, rfl⟩
  next hpositive =>
    have hpositive : r.hasPositiveSignal = true := by simpa using hpositive
    split
    next hfull =>
      simp only [Bool.and_eq_true, decide_eq_true_eq, List.length_map] at hfull
      obtain ⟨⟨⟨hfound, hlength⟩, hcounts⟩, -⟩ := hfull
      refine .inr (.inl ⟨hpositive, ⟨?_, ?_⟩, by simpa [findingsOf] using hfound, rfl⟩)
      · exact List.filter_eq_self.mp (List.filter_sublist.eq_of_length hlength)
      · obtain ⟨summary, hsummary, hcount⟩ := (Option.any_eq_true _ _).mp hcounts
        exact ⟨summary, hsummary, by simpa [List.sum_eq_foldl] using hcount⟩
    next => exact .inr (.inr ⟨hpositive, _, rfl⟩)

theorem not_positive_of_clean (h : r.hasTrustworthyClean = true) : r.hasPositiveSignal = false := by
  unfold SanitizerSweepResult.hasTrustworthyClean at h
  simp only [Bool.and_eq_true, decide_eq_true_eq] at h
  obtain ⟨⟨⟨⟨⟨⟨-, -⟩, hout⟩, -⟩, hzero⟩, -⟩, hfindings⟩ := h
  obtain ⟨summary, hsummary, hzero⟩ := (Option.any_eq_true _ _).mp hzero
  simp only [SanitizerSummary.isZero, Bool.and_eq_true, decide_eq_true_eq] at hzero
  obtain ⟨⟨htotal, herrors⟩, hwarnings⟩ := hzero
  simp [SanitizerSweepResult.hasPositiveSignal, SanitizerSummary.isPositive, hout, hfindings, hsummary,
    htotal, herrors, hwarnings]

theorem findings_of_not_positive (h : r.hasPositiveSignal = false) : r.findings = [] := by
  simp only [SanitizerSweepResult.hasPositiveSignal, Bool.or_eq_false_iff] at h
  simpa using h.1.2

theorem SanitizerSweepResult.Consistent.project (h : r.Consistent) (id : String)
    (kernel : KernelId) : (projectTargetScopedSanitizerResult r id kernel).Consistent := by
  rcases project_cases r id kernel with ⟨-, heq⟩ | ⟨hpositive, -, hne, heq⟩ | ⟨-, issues, heq⟩
  · rw [heq]
    exact { h with }
  · rw [heq]
    refine ⟨fun _ => .inl hne, fun hout => ?_, h.complete, h.not_early⟩
    exact absurd hpositive (by simp [not_positive_of_clean (h.clean hout)])
  · rw [heq]
    exact ⟨nofun, nofun, nofun, nofun⟩

theorem project_tool (r : SanitizerSweepResult) (id : String) (kernel : KernelId) :
    (projectTargetScopedSanitizerResult r id kernel).tool = r.tool ∧
      (projectTargetScopedSanitizerResult r id kernel).provenance =
        { r.provenance with kernel := some kernel } := by
  rcases project_cases r id kernel with ⟨-, heq⟩ | ⟨-, -, -, heq⟩ | ⟨-, issues, heq⟩ <;>
    exact heq ▸ ⟨rfl, rfl⟩

/-! ### Children -/

/-- The experiment of a child session for what was run on the whole target. -/
structure ChildSpec (spec : ExperimentSpec) (kernel : KernelId) (child : ExperimentSpec) : Prop where
  kind : child.kind = .computeSanitizer
  tool : child.sanitizerTool = spec.sanitizerTool
  revision : child.unit.sourceRevision = spec.unit.sourceRevision
  arch : child.unit.arch = spec.unit.arch
  kernel : child.unit.kernel = some kernel

/-- What a child session is given of a result of the whole target. -/
structure Inherits (child : ExperimentSpec) (kernel : KernelId) (r p : SanitizerSweepResult) : Prop where
  accepted : validateResultAgainstSpec child (.sanitizer p) = .ok ()
  findings : p.findings = findingsOf kernel r.findings
  clean : p.hasTrustworthyClean = true → r.hasTrustworthyClean = true
  complete : p.completeness = .complete → r.hasPositiveSignal = true → r.Attributed kernel

theorem inherits_project {spec child : ExperimentSpec} {kernel : KernelId} (hr : r.Consistent)
    (hchild : ChildSpec spec kernel child) (htool : spec.sanitizerTool = some r.tool)
    (hrevision : r.provenance.sourceRevision = spec.unit.sourceRevision)
    (harch : r.provenance.arch = spec.unit.arch) :
    Inherits child kernel r (projectTargetScopedSanitizerResult r child.experimentId kernel) := by
  obtain ⟨hsame, hprovenance⟩ := project_tool r child.experimentId kernel
  refine ⟨(hr.project _ kernel).accepted hchild.kind ?_ ?_ ?_ ?_, ?_, ?_, ?_⟩
  · rw [hsame, hchild.tool, htool]
  · rw [hprovenance, hchild.revision]
    exact hrevision
  · rw [hprovenance, hchild.arch]
    exact harch
  · rw [hprovenance, hchild.kernel]
  all_goals
    rcases project_cases r child.experimentId kernel with
      ⟨hpositive, heq⟩ | ⟨hpositive, hall, hne, heq⟩ | ⟨hpositive, issues, heq⟩ <;> rw [heq]
  · simp [findings_of_not_positive hpositive, findingsOf]
  · exact id
  · intro hclean
    exact absurd (findings_of_not_positive (not_positive_of_clean hclean)) hne
  · exact fun hclean => absurd hclean (by simp [SanitizerSweepResult.hasTrustworthyClean])
  · exact fun _ h => absurd h (by simp [hpositive])
  · exact fun _ _ => hall
  · exact nofun

/-- The result of any log passes the checks of its session, and on every kernel those of the
child session, which then sees the findings of that kernel only. -/
theorem sanitizer_evidence_conservative (u : CharTable) (spec : ExperimentSpec) (tool : String)
    (hkind : spec.kind = .computeSanitizer) (htool : spec.sanitizerTool = some tool)
    (executionStatus : ExecutionStatus) (logText : Text) (log : Option ArtifactRef) (durationS : ℚ)
    (error : Option String) :
    ∃ r, buildSanitizerResult u spec executionStatus logText log durationS error none = .ok r ∧
      validateResultAgainstSpec spec (.sanitizer r) = .ok () ∧
      (spec.unit.kernel = none → isTargetScopedSanitizer tool = true →
        ∀ kernel child, ChildSpec spec kernel child →
          Inherits child kernel r (projectTargetScopedSanitizerResult r child.experimentId kernel)) := by
  have hconsistent := sanitizerResult_consistent u spec tool logText executionStatus log durationS error none
  have haccepted := hconsistent.accepted hkind htool rfl rfl rfl
  unfold buildSanitizerResult
  rw [htool]
  dsimp only
  cases hkernel : spec.unit.kernel with
  | none =>
    refine ⟨_, rfl, haccepted, fun _ _ kernel child hchild => ?_⟩
    exact inherits_project hconsistent hchild htool rfl rfl
  | some kernel =>
    dsimp only
    split_ifs with hscoped
    · refine ⟨_, rfl, ?_, nofun⟩
      obtain ⟨hsame, hprovenance⟩ := project_tool (sanitizerResult spec tool
        (checkerEvidence u tool logText) executionStatus log durationS error none) spec.experimentId kernel
      refine (hconsistent.project spec.experimentId kernel).accepted hkind ?_ ?_ ?_ ?_
      · rw [hsame, htool]
        rfl
      · rw [hprovenance]
        rfl
      · rw [hprovenance]
        rfl
      · rw [hprovenance, hkernel]
    · exact ⟨_, rfl, haccepted, nofun⟩

def sanitizerSpec (id tool : String) (unit : WorkUnit) : ExperimentSpec where
  experimentId := id
  sessionId := "s1"
  phase := .initial
  kind := .computeSanitizer
  unit := unit
  roundIndex := 0
  discovery := none
  sanitizerTool := some tool
  stress := none
  trace := none
  reduction := none

/-- A read that initcheck reports in `vectorAdd`. -/
def uninitializedLog : String :=
  "========= Uninitialized __global__ memory read of size 4 bytes\n" ++
  "=========     at vectorAdd+0x10 in add.cu:3\n" ++
  "========= ERROR SUMMARY: 1 error\n"

theorem sanitizer_evidence_conservative_vectorAdd :
    let kernel : KernelId := ⟨"vectorAdd", "c0ffee", none⟩
    ∃ r, buildSanitizerResult .ascii (sanitizerSpec "e1" "initcheck" { vectorAdd with kernel := none })
        .succeeded uninitializedLog.toList none 0 none none = .ok r ∧
      r.outcome = .finding ∧
      Inherits (sanitizerSpec "e2" "initcheck" vectorAdd) kernel r
        (projectTargetScopedSanitizerResult r "e2" kernel) ∧
      (projectTargetScopedSanitizerResult r "e2" kernel).completeness = .complete := by
  intro kernel
  obtain ⟨r, hr, -, hall⟩ := sanitizer_evidence_conservative .ascii
    (sanitizerSpec "e1" "initcheck" { vectorAdd with kernel := none }) "initcheck" rfl rfl .succeeded
    uninitializedLog.toList none 0 none
  have hout : ((buildSanitizerResult .ascii (sanitizerSpec "e1" "initcheck" { vectorAdd with kernel := none })
      .succeeded uninitializedLog.toList none 0 none none).toOption.map fun r =>
        (r.outcome, (projectTargetScopedSanitizerResult r "e2" ⟨"vectorAdd", "c0ffee", none⟩).completeness)) =
      some (.finding, .complete) := by
    -- the log as a list of characters, so that no text is decoded
    delta uninitializedLog
    rw [String.toList_append, String.toList_append, String.toList_ofList, String.toList_ofList,
      String.toList_ofList]
    decide +kernel
  rw [hr] at hout
  obtain ⟨hout, hcomplete⟩ := Prod.mk.inj (Option.some.inj hout)
  exact ⟨r, hr, hout, hall rfl (by decide) kernel (sanitizerSpec "e2" "initcheck" vectorAdd)
    ⟨rfl, rfl, rfl, rfl, rfl⟩, hcomplete⟩

end CuTracer.Service
