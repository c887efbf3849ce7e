import CuTracer.Service.Policy

/-! The analysis session: a state machine whose transitions return the next
session and the effects that its driver has to run. A transition that raises
leaves the session as it was. -/

namespace CuTracer.Service

inductive SessionEffect where
  | submitExperiments (experiments : List ExperimentSpec)
  | createChildSessions
  | runTriage
  | runReasoner
  | publishReport
  deriving DecidableEq

structure Transition where
  session : AnalysisSession
  effects : List SessionEffect

/-- `_TERMINAL_STATUSES`. -/
def SessionStatus.terminal : SessionStatus → Bool
  | .completed | .inconclusive | .failed => true
  | _ => false

def artifactRefs (evidence : EvidenceBundle) : List String :=
  (evidence.artifactRefs.map ArtifactRef.uri).eraseDups

/-- `normalized[:_MAX_TERMINATION_REASON_LENGTH]` of a reason that was stripped. -/
def clipReason (reason : String) : String :=
  String.ofList ((Amdgcn.strip reason.toList).take 2048)

variable (session : AnalysisSession)

def recordInfrastructureFailure (reason : String) :
    Except ServiceError Transition := do
  raiseIf (blank reason) "infrastructure failure requires a reason" []
  if session.status.terminal then return ⟨session, []⟩
  else return ⟨{ session with
    status := .failed
    pendingExperiments := []
    report := none
    terminationReason := clipReason reason }, []⟩

/-! ### Validation against the session -/

/-- How many evidence records an experiment has. -/
def evidenceCount (id : String) : ℕ :=
  session.evidence.results.countP fun r => r.experimentId = id

def validateSessionResultIndexes : Check := do
  rejectIf (!decide session.pendingExperimentIds.Nodup) "session_state_corrupt"
    "pending experiment IDs are not unique" []
  rejectIf (!decide session.completedExperimentIds.Nodup) "session_state_corrupt"
    "completed experiment IDs are not unique" []
  let overlap := session.pendingExperimentIds.filter session.completedExperimentIds.contains
  rejectIf (!overlap.isEmpty) "session_state_corrupt"
    "experiments are both pending and completed: %s" overlap
  session.completedExperimentIds.forM fun id =>
    rejectIf (evidenceCount session id ≠ 1) "session_state_corrupt"
      "completed experiment %s has %d evidence records"
      [id, toString (evidenceCount session id)]

def validateSpecContext (spec : ExperimentSpec) : Check := do
  rejectIf (spec.sessionId ≠ session.sessionId) "session_mismatch"
    "pending spec belongs to session %s" [spec.sessionId]
  rejectIf (!spec.unit.same session.unit) "session_mismatch"
    "pending spec work unit differs from the session" []
  match spec.phase with
  | .initial => do
    rejectIf (session.status ≠ .waitingInitial) "phase_mismatch"
      "initial result received in state %s" [session.status.value]
    rejectIf (spec.roundIndex ≠ 0 || session.roundIndex ≠ 0) "round_mismatch"
      "initial experiments must belong to round zero" []
  | .followup => do
    rejectIf (session.status ≠ .waitingFollowup) "phase_mismatch"
      "follow-up result received in state %s" [session.status.value]
    rejectIf (spec.roundIndex < 1 || spec.roundIndex ≠ session.roundIndex) "round_mismatch"
      "follow-up round %d does not match session round %d"
      [toString spec.roundIndex, toString session.roundIndex]

def experimentRecord (spec : ExperimentSpec) (result : ExperimentResult) : ExperimentRecord where
  experimentId := result.experimentId
  kind := result.kind
  phase := spec.phase
  roundIndex := spec.roundIndex
  executionStatus := result.executionStatus
  outcome :=
    match result with
    | .discovery r => r.outcome.value
    | .sanitizer r => r.outcome.value
    | .stress r => r.outcome.value
    | .trace _ => ""
    | .reduction r => r.outcome.value
  completeness :=
    match result with
    | .sanitizer r => r.completeness.value
    | .stress r => r.completeness.value
    | .trace r => r.completeness.value
    | _ => ""

/-! ### Reports without the reasoner -/

variable (evidence : EvidenceBundle)

def reproduced : Bool :=
  evidence.stress.any StressTestResult.hasPositiveSignal

def inconclusiveReport (reason : String) : ExplainReport where
  rootCause := ""
  raceClass := .unknown
  confidence := .l
  isReproduced := reproduced session.evidence
  crossValidation := ⟨false, reason⟩
  evidenceSufficiency := .insufficient
  evidenceRefs := artifactRefs session.evidence
  recommendedAction := "Review the preserved evidence and run a targeted experiment."
  rawAiOutput := ""

def triageReport (decision : TriageDecision) : ExplainReport where
  rootCause := ""
  raceClass := .unknown
  confidence := .l
  isReproduced := reproduced session.evidence
  crossValidation := ⟨true, decision.reason⟩
  evidenceSufficiency := .sufficient
  evidenceRefs := artifactRefs session.evidence
  recommendedAction := "No new action required: " ++ decision.reason
  rawAiOutput := ""

def terminateInconclusive (reason : String) (triage : Option TriageDecision) : Transition :=
  ⟨{ session with
      triage := triage.orElse fun _ => session.triage
      status := .inconclusive
      terminationReason := reason
      report := some (inconclusiveReport session reason)
      reportPublication := .pending },
    [.publishReport]⟩

/-! ### Creation -/

def isTargetScopedSanitizer (tool : String) : Bool := ["initcheck"].contains tool

def matchesKernel (finding : FindingRecord) (kernel : KernelId) : Bool :=
  match finding.kernelName with
  | none => false
  | some name => name = kernel.name || kernel.mangledName = some name

def projectTargetScopedSanitizerResult (result : SanitizerSweepResult) (id : String)
    (kernel : KernelId) : SanitizerSweepResult :=
  let provenance := { result.provenance with kernel := some kernel }
  if !result.hasPositiveSignal then
    { result with experimentId := id, provenance := provenance }
  else
    let found := (result.findings.filter fun f => matchesKernel f kernel).map fun f =>
      { f with kernelName := some kernel.name }
    let observed := (result.findings.map FindingRecord.count).foldl (· + ·) 0
    let countsMatch := result.summary.any fun summary => summary.errors = observed
    if !found.isEmpty && found.length = result.findings.length && countsMatch &&
        !result.outputTruncated then
      { result with experimentId := id, findings := found, provenance := provenance }
    else
      let issue (c : Bool) (text : String) : List String := if c then [text] else []
      let issues := result.summaryIssues ++
        issue result.outputTruncated "target_scope_output_truncated" ++
        issue (!countsMatch) "target_scope_finding_count_mismatch" ++
        issue (result.findings.any fun f => f.kernelName.isNone)
          "target_scope_contains_unattributed_findings" ++
        issue (result.findings.any fun f => f.kernelName.isSome && !matchesKernel f kernel)
          "target_scope_contains_other_kernel_findings" ++
        issue found.isEmpty "target_scope_has_no_matching_finding"
      { result with
        experimentId := id
        outcome := .unknown
        findings := found
        provenance := provenance
        summary := none
        completeness := .partialRun
        summaryIssues := issues.eraseDups }

/-- What `_initial_campaign_state` returns, and the shared results it has not used yet. -/
structure CampaignState where
  evidence : EvidenceBundle
  pending : List ExperimentSpec
  completedIds : List String
  history : List ExperimentRecord
  shared : List SanitizerSweepResult

def indexShared (shared : List SanitizerSweepResult) :
    Except ServiceError (List SanitizerSweepResult) :=
  shared.foldlM (fun acc result => do
    raiseIf (!isTargetScopedSanitizer result.tool) "sanitizer tool is not target-scoped: %s"
      [result.tool]
    raiseIf (acc.any fun r => r.tool = result.tool) "duplicate shared sanitizer result: %s"
      [result.tool]
    return acc ++ [result]) []

/-- One planned spec: pending, or completed at once by a shared result. -/
def planSpec (kernel : Option KernelId) (state : CampaignState) (spec : ExperimentSpec) :
    Except ServiceError CampaignState :=
  match spec.sanitizerTool.bind fun tool => state.shared.find? fun r => r.tool = tool with
  | none => .ok { state with pending := state.pending ++ [spec] }
  | some shared =>
    match kernel with
    | none => .error (.value "shared sanitizer evidence requires a pinned kernel" [])
    | some kernel => do
      let projected : ExperimentResult :=
        .sanitizer (projectTargetScopedSanitizerResult shared spec.experimentId kernel)
      validateResultAgainstSpec spec projected
      return { state with
        evidence := state.evidence.add projected
        completedIds := state.completedIds ++ [spec.experimentId]
        history := state.history ++ [experimentRecord spec projected]
        shared := state.shared.filter fun r => r.tool ≠ shared.tool }

def initialCampaignState (plan : CampaignPlan) (shared : List SanitizerSweepResult)
    (kernel : Option KernelId) : Except ServiceError CampaignState := do
  let shared ← indexShared shared
  let evidence := plan.skippedResults.foldl (fun e r => e.add (.stress r)) EvidenceBundle.empty
  let state ← plan.experiments.foldlM (planSpec kernel) ⟨evidence, [], [], [], shared⟩
  raiseIf (!state.shared.isEmpty)
    "shared sanitizer results are not present in the child policy: %s"
    (state.shared.map SanitizerSweepResult.tool)
  return state

variable (h : Hashes)

/-- A session that waits for its pending experiments, or for triage when it has none. -/
def openSession (sessionId : String) (unit : WorkUnit) (budget : SessionBudget)
    (state : CampaignState) : Transition :=
  ⟨{ sessionId := sessionId
     unit := unit
     status := if state.pending = [] then .waitingTriage else .waitingInitial
     evidence := state.evidence
     budget := budget
     pendingExperiments := state.pending
     experimentFingerprints := state.pending.map (experimentSpecFingerprint h)
     submittedExperiments := state.pending.length
     completedExperimentIds := state.completedIds
     experimentHistory := state.history },
    if state.pending = [] then [.runTriage] else [.submitExperiments state.pending]⟩

def createSession (sessionId : String) (unit : WorkUnit) (budget : SessionBudget)
    (policy : InitialCampaignPolicy) (shared : List SanitizerSweepResult) :
    Except ServiceError Transition := do
  raiseIf (!pinned unit.kernel) ("analysis session requires a kernel-pinned WorkUnit; run kernel " ++
    "discovery before creating the session") []
  let state ← initialCampaignState (policy.plan h sessionId unit) shared unit.kernel
  if state.pending.length > budget.maxExperiments then
    return terminateInconclusive
      { sessionId := sessionId
        unit := unit
        status := .waitingTriage
        evidence := state.evidence
        budget := budget
        completedExperimentIds := state.completedIds
        experimentHistory := state.history }
      ("initial experiment budget exhausted: required=" ++ toString state.pending.length ++
        ", limit=" ++ toString budget.maxExperiments) none
  else return openSession h sessionId unit budget state

def discoveryExperiment (sessionId : String) (unit : WorkUnit) (options : KernelDiscoveryOptions) :
    ExperimentSpec where
  experimentId := sessionId ++ "-kernel-discovery"
  sessionId := sessionId
  phase := .initial
  kind := .kernelDiscovery
  unit := unit
  roundIndex := 0
  discovery := some options
  sanitizerTool := none
  stress := none
  trace := none
  reduction := none

def discoveryExperiments (sessionId : String) (unit : WorkUnit) (policy : InitialCampaignPolicy)
    (options : KernelDiscoveryOptions) : List ExperimentSpec :=
  discoveryExperiment sessionId unit options ::
    (policy.plan h sessionId unit).experiments.filter fun spec =>
      spec.kind = .computeSanitizer && spec.sanitizerTool.any isTargetScopedSanitizer

def createDiscoverySession (sessionId : String) (unit : WorkUnit) (budget : SessionBudget)
    (policy : InitialCampaignPolicy) (maxKernels : ℤ) :
    Except ServiceError Transition := do
  raiseIf unit.kernel.isSome "kernel discovery session requires an unpinned WorkUnit" []
  raiseIf (maxKernels ≤ 0) "max_kernels must be positive" []
  let experiments := discoveryExperiments h sessionId unit policy ⟨maxKernels⟩
  let session : AnalysisSession :=
    { sessionId := sessionId
      unit := unit
      status := .waitingTriage
      evidence := EvidenceBundle.empty
      budget := budget
      discoveryPlan := some ⟨maxKernels⟩
      childSanitizerTools := policy.sanitizerTools
      childEnableStress := policy.enableStress
      childStressOptions := some policy.stressOptions }
  if experiments.length > budget.maxExperiments then
    return terminateInconclusive session
      ("discovery experiment budget exhausted: required=" ++ toString experiments.length ++
        ", limit=" ++ toString budget.maxExperiments) none
  else
    return ⟨{ session with
        status := .waitingInitial
        pendingExperiments := experiments
        experimentFingerprints := experiments.map (experimentSpecFingerprint h)
        submittedExperiments := experiments.length },
      [.submitExperiments experiments]⟩

/-! ### Results -/

/-- The session once a result of `spec` was accepted. -/
def acceptResult (spec : ExperimentSpec) (result : ExperimentResult) : AnalysisSession :=
  { session with
    evidence := session.evidence.add result
    pendingExperiments := session.pendingExperiments.filter fun s =>
      s.experimentId ≠ result.experimentId
    completedExperimentIds := session.completedExperimentIds ++ [result.experimentId]
    experimentHistory := session.experimentHistory ++ [experimentRecord spec result] }

/-- What follows an accepted result: nothing while others are pending. -/
def continueSession (updated : AnalysisSession) (phase : ExperimentPhase) :
    Except ServiceError Transition :=
  if updated.pendingExperiments ≠ [] then .ok ⟨updated, []⟩
  else if updated.discoveryPlan.isSome then
    match updated.evidence.discovery with
    | [discovery] =>
      if discovery.outcome ≠ .discovered then
        .ok ⟨{ updated with
          status := .failed
          terminationReason :=
            if discovery.error.all fun e => e = "" then discovery.outcome.value
            else discovery.error.getD "" }, []⟩
      else .ok ⟨{ updated with status := .waitingChildren }, [.createChildSessions]⟩
    | _ => .error (.rejected "session_state_corrupt"
        "discovery parent must contain exactly one discovery result" [])
  else
    match phase with
    | .initial => .ok ⟨{ updated with status := .waitingTriage }, [.runTriage]⟩
    | .followup => .ok ⟨{ updated with status := .waitingReasoner }, [.runReasoner]⟩

def recordExperimentResult (result : ExperimentResult) :
    Except ServiceError Transition := do
  validateSessionResultIndexes session
  if result.experimentId ∈ session.completedExperimentIds then
    match session.evidence.results.find? fun r => r.experimentId = result.experimentId with
    | some accepted =>
      if accepted = result then return ⟨session, []⟩
      else .error (.rejected "duplicate_conflict"
        "experiment %s already completed with a different payload" [result.experimentId])
    | none => .error .assertion
  else
    match session.pendingExperiments.filter fun s => s.experimentId = result.experimentId with
    | [] => .error (.rejected "experiment_not_pending" "unexpected experiment result: %s"
        [result.experimentId])
    | [spec] => do
      validateSpecContext session spec
      validateResultAgainstSpec spec result
      continueSession (acceptResult session spec result) spec.phase
    | matched => .error (.rejected "session_state_corrupt"
        "experiment %s resolves to %d pending specs" [result.experimentId, toString matched.length])

/-! ### Children and triage -/

def recordDiscoveryChildrenStarted (childSessionIds : List String) :
    Except ServiceError Transition := do
  raiseIf (!decide childSessionIds.Nodup) "discovery child session IDs must be unique" []
  if session.status = .completed then
    if session.childSessionIds.all childSessionIds.contains &&
        childSessionIds.all session.childSessionIds.contains then return ⟨session, []⟩
    else .error (.value "completed discovery session has different child sessions" [])
  else if session.status ≠ .waitingChildren then
    .error (.value "cannot record discovery children in state: %s" [session.status.value])
  else
    match session.evidence.discovery with
    | [discovery] =>
      match discovery.discovery with
      | none => .error (.value "discovery parent has no successful manifest" [])
      | some manifest =>
        if childSessionIds.length ≠ manifest.kernels.length then
          .error (.value "discovery child session count does not match manifest" [])
        else return ⟨{ session with
          childSessionIds := childSessionIds
          status := .completed
          terminationReason := "created " ++ toString childSessionIds.length ++
            " kernel-pinned analysis sessions" }, []⟩
    | _ => .error (.value "discovery parent has no successful manifest" [])

def recordTriageDecision (decision : TriageDecision) : Except ServiceError Transition :=
  if session.status ≠ .waitingTriage then
    .error (.value "cannot triage session in state: %s" [session.status.value])
  else
    match decision.outcome with
    | .inconclusive => .ok (terminateInconclusive session decision.reason (some decision))
    | .finish => .ok ⟨{ session with
        triage := some decision
        status := .completed
        terminationReason := decision.reason
        report := some (triageReport session decision)
        reportPublication := .pending }, [.publishReport]⟩
    | .analyze => .ok ⟨{ session with
        triage := some decision
        status := .waitingReasoner }, [.runReasoner]⟩

/-! ### The reasoner's decisions -/

def hasCorrectnessSignal : Bool :=
  evidence.sanitizer.any SanitizerSweepResult.hasPositiveSignal ||
    evidence.stress.any StressTestResult.hasPositiveSignal

def bothInitialSourcesAreTrustworthyClean : Bool :=
  !evidence.sanitizer.isEmpty && evidence.sanitizer.all SanitizerSweepResult.hasTrustworthyClean &&
    (!evidence.stress.isEmpty &&
      evidence.stress.all StressTestResult.hasTrustworthyNonReproduction)

def initialEvidenceRequiresInconclusive : Bool :=
  (!evidence.sanitizer.isEmpty || !evidence.stress.isEmpty) && !hasCorrectnessSignal evidence &&
    !bothInitialSourcesAreTrustworthyClean evidence

def citedCompleteSanitizerResults (report : ExplainReport) : List SanitizerSweepResult :=
  evidence.sanitizer.filter fun result =>
    result.executionStatus = .succeeded && result.outcome = .finding &&
      result.completeness = .complete && !result.outputTruncated && result.summaryIssues.isEmpty &&
      result.log.any fun log => report.evidenceRefs.contains log.uri

def hasCitedSanitizerDiagnosis (report : ExplainReport) : Bool :=
  (citedCompleteSanitizerResults evidence report).any fun result =>
    result.findings.any fun finding =>
      ["uninitialized-read", "invalid-memory-access", "misaligned-access", "memory-leak"].contains
        finding.errorType

def hasCitedRace (report : ExplainReport) : Bool :=
  (citedCompleteSanitizerResults evidence report).any fun result =>
    result.tool = "racecheck" && result.findings.any fun finding =>
      finding.errorType = "race-condition" && finding.count > 0 &&
        (!blank finding.errorDetail || !blank finding.raw)

/-- What one trace result says: a cited complete violation ends the search, otherwise
whether the trace limits the raw evidence. -/
def rawTraceVerdict (report : ExplainReport) (result : TraceExperimentResult) : Option Bool :=
  let cited (ref : ArtifactRef) : Bool := report.evidenceRefs.contains ref.uri
  let traceCited := (result.analysis.bind TraceAnalysisEvidence.artifact).any cited ||
    result.traces.any cited
  match result.analysis with
  | none => some traceCited
  | some analysis =>
    let summaries := analysis.detectorSummaries.filter fun summary =>
      summary.sourceTool = "cutracer" &&
        ["data_race_raw", "global_mem_raw"].contains summary.subComponent
    let complete := result.executionStatus = .succeeded && result.completeness = .complete &&
      analysis.executionStatus = .succeeded
    if complete && traceCited && summaries.any (fun summary =>
        summary.verdict = "violations_found" && summary.severity = .error &&
          summary.findingCount > 0) then none
    else some ((traceCited && !complete) || summaries.any fun summary =>
      !complete || summary.verdict = "indeterminate" || summary.severity = .warning)

/-- The loop over traces: `none` once a complete violation is cited. -/
def limitedRawEvidence (report : ExplainReport) (traces : List TraceExperimentResult) :
    Option Bool :=
  traces.foldlM (fun limited result => (rawTraceVerdict report result).map (limited || ·)) false

def rawTraceClaimIsUnsupported (report : ExplainReport) : Bool :=
  if hasCitedRace evidence report then false
  else (limitedRawEvidence report evidence.traces).getD false

/-- Evidence references of a report that the session does not hold. -/
def foreignRefs (report : ExplainReport) : List String :=
  report.evidenceRefs.filter fun ref => !(artifactRefs session.evidence).contains ref

def analysisReportRejection (decision : AnalysisDecision) : Option String :=
  match decision.report with
  | none => none
  | some report =>
    let foreign := foreignRefs session report
    if foreign ≠ [] then
      some ("reasoner cited artifacts outside this session: " ++
        ", ".intercalate (foreign.eraseDups.mergeSort fun a b => decide (a ≤ b)))
    else if decision.kind ≠ .final then none
    else if report.evidenceSufficiency ≠ .sufficient then
      some "reasoner final claim is not supported by sufficient evidence"
    else if report.raceClass = .unknown then
      some "reasoner final claim has an unknown race class"
    else if report.raceClass = .raw && rawTraceClaimIsUnsupported session.evidence report then
      some ("reasoner RAW diagnosis relies on incomplete ordering evidence; " ++
        "no cited complete RAW finding supports the mechanism")
    else if report.raceClass = .none && !blank report.rootCause &&
        !hasCitedSanitizerDiagnosis session.evidence report then
      some ("reasoner reported a root cause without a race class " ++
        "or a cited complete sanitizer finding")
    else if report.raceClass ≠ .none && blank report.rootCause then
      some "reasoner classified a race without a root-cause explanation"
    else none

def noteLastTurn (turns : List AnalysisTurn) (notes : List String) : List AnalysisTurn :=
  match turns.getLast? with
  | none => turns
  | some turn => turns.dropLast ++ [{ turn with guardNotes := turn.guardNotes ++ notes }]

def addTurn (decision : AnalysisDecision) : AnalysisSession :=
  { session with turns := session.turns ++ [⟨session.turns.length, decision, []⟩] }

def addNotes (notes : List String) : AnalysisSession :=
  { session with turns := noteLastTurn session.turns notes }

def turnRejection (decision : AnalysisDecision) : Option String :=
  if session.roundIndex = 0 && initialEvidenceRequiresInconclusive session.evidence then
    some "initial evidence is incomplete"
  else analysisReportRejection session decision

def startFollowup (guarded : GuardedExperiments) : Transition :=
  ⟨{ session with
      roundIndex := session.roundIndex + 1
      status := .waitingFollowup
      pendingExperiments := guarded.experiments
      experimentFingerprints := session.experimentFingerprints ++ guarded.fingerprints
      submittedExperiments := session.submittedExperiments + guarded.experiments.length },
    [.submitExperiments guarded.experiments]⟩

/-- A `FOLLOWUP_REQUIRED` decision whose turn was accepted. -/
def requestFollowup (guard : ExperimentGuardPolicy) (updated : AnalysisSession)
    (requests : List ExperimentRequest) : Except ServiceError Transition :=
  if updated.roundIndex ≥ updated.budget.maxRounds then
    .ok (terminateInconclusive updated "follow-up round budget exhausted" none)
  else do
    let guarded ← guard.expand h updated requests
    let updated := addNotes updated (guarded.notes ++ guarded.rejections)
    if guarded.experiments = [] then
      return terminateInconclusive updated
        (if guarded.rejections = [] then "no new valid follow-up experiment"
        else "no new valid follow-up experiment: " ++ "; ".intercalate guarded.rejections) none
    else if updated.submittedExperiments + guarded.experiments.length >
        updated.budget.maxExperiments then
      return terminateInconclusive updated "experiment budget exhausted" none
    else return startFollowup updated guarded

def recordAnalysisDecision (guard : ExperimentGuardPolicy) (session : AnalysisSession)
    (decision : AnalysisDecision) : Except ServiceError Transition :=
  if session.status ≠ .waitingReasoner then
    .error (.value "reasoner result in invalid state: %s" [session.status.value])
  else
    let updated := addTurn session decision
    match turnRejection session decision with
    | some reason => .ok (terminateInconclusive (addNotes updated [reason]) reason none)
    | none =>
      match decision.kind, decision.report with
      | .final, none => .error (.value "FINAL decision must include a report" [])
      | .final, some report => .ok ⟨{ updated with
          status := .completed
          report := some report
          terminationReason := "reasoner finalized the report"
          reportPublication := .pending }, [.publishReport]⟩
      | .inconclusive, none => .error (.value "INCONCLUSIVE decision must include a report" [])
      | .inconclusive, some report => .ok ⟨{ updated with
          status := .inconclusive
          report := some report
          terminationReason := decision.rationale
          reportPublication := .pending }, [.publishReport]⟩
      | .followupRequired, _ => requestFollowup h guard updated decision.requests

/-! ### Publication -/

/-- `session.status in (COMPLETED, INCONCLUSIVE)`. -/
def SessionStatus.reported : SessionStatus → Bool
  | .completed | .inconclusive => true
  | _ => false

def recordReportPublished (artifact : Option ArtifactRef) :
    Except ServiceError Transition := do
  raiseIf (!session.status.reported) "cannot publish report in state: %s"
    [session.status.value]
  raiseIf session.report.isNone "cannot publish a missing report" []
  if session.reportPublication = .published then return ⟨session, []⟩
  else if session.reportPublication ≠ .pending then
    .error (.value "report is not pending publication: %s" [session.reportPublication.value])
  else return ⟨{ session with
    reportPublication := .published
    reportPublicationError := ""
    publishedReport := artifact }, []⟩

def recordReportPublicationFailed (reason : String) :
    Except ServiceError Transition := do
  raiseIf (blank reason) "report publication failure requires a reason" []
  raiseIf (!session.status.reported) "cannot fail report publication in state: %s"
    [session.status.value]
  if session.reportPublication = .failed then return ⟨session, []⟩
  else if session.reportPublication ≠ .pending then
    .error (.value "report is not pending publication: %s" [session.reportPublication.value])
  else return ⟨{ session with
    reportPublication := .failed
    reportPublicationError := clipReason reason }, []⟩

end CuTracer.Service
