import CuTracer.Service.Contracts

/-! What a result must satisfy before it is bound to the spec it answers. -/

namespace CuTracer.Service

/-- An exception of the service: its text is a template with its arguments. -/
inductive ServiceError where
  /-- `ExperimentResultValidationError`. -/
  | rejected (code message : String) (args : List String)
  /-- `ValueError`. -/
  | value (message : String) (args : List String)
  /-- A failed `assert`. -/
  | assertion

abbrev Check := Except ServiceError Unit

/-- `if c: _reject_result(code, message)`. -/
def rejectIf (c : Bool) (code message : String) (args : List String) : Check :=
  if c then .error (.rejected code message args) else .ok ()

/-- `if c: raise ValueError(message)`. -/
def raiseIf (c : Bool) (message : String) (args : List String) : Check :=
  if c then .error (.value message args) else .ok ()

/-- `assert x is not None`. -/
def required {α : Type} : Option α → Except ServiceError α
  | some a => .ok a
  | none => .error .assertion

variable (spec : ExperimentSpec)

def validateProvenance (result : ExperimentResult) : Check := do
  let provenance := result.provenance
  let expected := spec.unit
  rejectIf (provenance.sourceRevision ≠ expected.sourceRevision) "source_revision_mismatch"
    "expected %r, got %r" [expected.sourceRevision, provenance.sourceRevision]
  rejectIf (provenance.arch ≠ expected.arch) "arch_mismatch" "expected %r, got %r"
    [expected.arch, provenance.arch]
  rejectIf (provenance.kernel.isNone ≠ expected.kernel.isNone) "kernel_identity_mismatch"
    "kernel identity presence does not match" []
  match provenance.kernel, expected.kernel with
  | some got, some want => do
    rejectIf (got.name ≠ want.name) "kernel_name_mismatch" "expected %r, got %r"
      [want.name, got.name]
    rejectIf (got.cubinHash ≠ want.cubinHash) "cubin_hash_mismatch" "expected %r, got %r"
      [want.cubinHash, got.cubinHash]
  | _, _ => .ok ()

/-! ### Discovery -/

def validateDiscoveryResult (result : KernelDiscoveryResult) : Check :=
  if result.outcome ≠ .discovered then .ok ()
  else
    match result.discovery with
    | none => .error (.rejected "discovery_result_inconsistent"
        "successful discovery has no manifest" [])
    | some manifest => do
      rejectIf (manifest.targetUnitId ≠ spec.unit.unitId ||
          manifest.sourceRevision ≠ spec.unit.sourceRevision || manifest.arch ≠ spec.unit.arch ||
          manifest.kernelFilters ≠ spec.unit.kernelFilters) "discovery_context_mismatch"
        "kernel discovery manifest differs from the pending WorkUnit" []
      let options ← required spec.discovery
      rejectIf (manifest.kernels.length > options.maxKernels) "discovery_result_inconsistent"
        "kernel discovery result exceeds the requested fanout limit" []

/-! ### Sanitizers -/

def validateSanitizerResult (result : SanitizerSweepResult) : Check := do
  rejectIf (some result.tool ≠ spec.sanitizerTool) "sanitizer_tool_mismatch"
    "expected %r, got %r" [spec.sanitizerTool.getD "None", result.tool]
  let hasReportedEvidence :=
    !result.findings.isEmpty || result.summary.any SanitizerSummary.isPositive
  rejectIf (result.outcome = .finding && !hasReportedEvidence) "sanitizer_result_inconsistent"
    "finding outcome has no finding block or positive summary" []
  rejectIf (result.outcome = .clean && !result.hasTrustworthyClean) "sanitizer_result_inconsistent"
    "clean outcome requires a complete zero racecheck summary" []
  rejectIf (result.completeness = .complete && !result.summaryIssues.isEmpty)
    "sanitizer_result_inconsistent"
    "complete sanitizer result cannot retain summary diagnostics" []
  rejectIf (result.completeness = .completeEarly) "sanitizer_result_inconsistent"
    "sanitizer checks do not support complete-early results" []

/-! ### Stress -/

def validateTriggeringConfig (result : StressTestResult) (config : TriggeringDelayConfig) :
    Check := do
  let unit := spec.unit
  rejectIf (config.workUnitId ≠ unit.unitId || config.targetArgv ≠ unit.argv ||
      some config.oracle ≠ unit.oracle || config.sourceRevision ≠ unit.sourceRevision ||
      config.arch ≠ unit.arch || !sameKernel config.kernel unit.kernel ||
      config.cutracerVersion ≠ result.provenance.toolVersion ||
      config.toolchainVersion ≠ result.provenance.toolchainVersion) "trigger_config_mismatch"
    "triggering config replay context differs from the pending spec" []
  let options ← required spec.stress
  rejectIf (!options.delayLadderNs.contains config.delayNs) "trigger_config_mismatch"
    "trigger delay is outside the planned ladder" []
  rejectIf (config.enableProb ≠ options.enableProb) "trigger_config_mismatch"
    "trigger probability differs from the plan" []
  if options.warpgroupIds ≠ [] then
    rejectIf (!(options.warpgroupIds.map some).contains config.warpgroupId)
      "trigger_config_mismatch" "trigger warpgroup is outside the planned targets" []
  else
    rejectIf config.warpgroupId.isSome "trigger_config_mismatch"
      "an untargeted plan returned a warpgroup target" []
  rejectIf (!(0 ≤ config.attemptIndex && config.attemptIndex < options.attemptsPerDelay))
    "trigger_config_mismatch" "trigger attempt is outside the planned range" []
  rejectIf (config.completedTrials ≠ result.completedTrials ||
      config.reproductions ≠ result.reproductions) "trigger_config_mismatch"
    "trigger campaign counts differ from the stress result" []

def validateStressCounts (result : StressTestResult) : Check := do
  let options ← required spec.stress
  rejectIf (result.plannedTrials ≠ options.plannedTrials) "stress_plan_mismatch"
    "expected %d planned trials, got %d"
    [toString options.plannedTrials, toString result.plannedTrials]
  rejectIf (result.completedTrials < 0 || result.reproductions < 0 ||
      result.unattributedReproductions < 0 || result.infraErrors < 0 ||
      result.timedOutTrials < 0 || result.completedTrials > result.plannedTrials ||
      result.reproductions + result.unattributedReproductions > result.completedTrials ||
      result.completedTrials + result.timedOutTrials > result.plannedTrials)
    "stress_plan_mismatch" "stress campaign counts are outside the plan" []

def validateStressTriggeringConfig (result : StressTestResult) : Check :=
  match result.triggeringConfig with
  | none => .ok ()
  | some config => do
    rejectIf (result.reproductions = 0) "trigger_config_mismatch"
      "triggering config has no reproduced trial" []
    validateTriggeringConfig spec result config

def validateSkippedStressOutcome (result : StressTestResult) : Check :=
  rejectIf (result.outcome = .skipped && (result.executionStatus ≠ .succeeded ||
      result.plannedTrials ≠ 0 || result.completedTrials ≠ 0 || result.reproductions ≠ 0 ||
      result.unattributedReproductions ≠ 0 || result.infraErrors ≠ 0 ||
      result.timedOutTrials ≠ 0 || result.triggeringConfig.isSome ||
      result.completeness ≠ .skipped)) "stress_result_inconsistent"
    "skipped stress result must have an empty skipped scope" []

def validateStressOutcome (result : StressTestResult) : Check := do
  validateStressTriggeringConfig spec result
  rejectIf (result.outcome = .reproduced &&
      (result.reproductions = 0 || result.triggeringConfig.isNone)) "stress_result_inconsistent"
    "reproduced outcome requires a persisted triggering config" []
  rejectIf (result.outcome = .unattributedReproduction &&
      (result.unattributedReproductions = 0 || result.reproductions ≠ 0 ||
        result.triggeringConfig.isSome)) "stress_result_inconsistent"
    "unattributed outcome requires only unattributed reproductions" []
  rejectIf (result.outcome = .notReproduced && !result.hasTrustworthyNonReproduction)
    "stress_result_inconsistent"
    "non-reproduced outcome requires complete error-free trial coverage" []
  validateSkippedStressOutcome result

def validateStressCompleteness (result : StressTestResult) : Check := do
  let options ← required spec.stress
  rejectIf (result.outcome ≠ .skipped && result.completeness = .skipped)
    "stress_result_inconsistent" "only a skipped outcome can claim skipped completeness" []
  rejectIf (result.outcome = .incomplete &&
      (result.completeness = .complete || result.completeness = .completeEarly))
    "stress_result_inconsistent" "incomplete outcome cannot claim complete coverage" []
  rejectIf (result.completeness = .complete &&
      (result.completedTrials ≠ result.plannedTrials || result.infraErrors ≠ 0 ||
        result.timedOutTrials ≠ 0)) "stress_result_inconsistent"
    "complete stress result must account for every planned trial" []
  rejectIf (result.completeness = .completeEarly && (result.outcome ≠ .reproduced ||
      !options.stopOnFirstReproduction || result.completedTrials ≥ result.plannedTrials ||
      result.infraErrors ≠ 0 || result.timedOutTrials ≠ 0)) "stress_result_inconsistent"
    "complete-early stress result requires an error-free early reproduction" []

def validateStressResult (result : StressTestResult) : Check := do
  validateStressCounts spec result
  validateStressOutcome spec result
  validateStressCompleteness spec result

/-! ### Traces -/

/-- `error is None or not error.strip()`. -/
def missingError (error : Option String) : Bool := error.all blank

variable (result : TraceExperimentResult)

def validateTraceSuccessShape : Check := do
  rejectIf (result.traces.isEmpty || result.error.isSome) "trace_result_inconsistent"
    "successful trace result requires one or more traces and no error" []
  rejectIf (result.completeness ≠ .complete && result.completeness ≠ .unknown)
    "trace_result_inconsistent" "successful trace result must be complete" []
  rejectIf (result.completeness = .unknown &&
      (result.traces.length ≠ 1 || !result.supportingArtifacts.isEmpty))
    "trace_result_inconsistent" "legacy unknown completeness supports one primary trace only" []
  if result.completeness ≠ .complete then .ok ()
  else do
    rejectIf (!result.supportingArtifacts.any fun artifact =>
        ".cubin".toList.isSuffixOf artifact.relativePath.toList) "trace_result_inconsistent"
      "complete trace result requires a supporting cubin" []
    rejectIf result.log.isNone "trace_result_inconsistent"
      "complete trace result requires a capture log" []

def validateTraceFailureShape : Check := do
  rejectIf (missingError result.error) "trace_result_inconsistent"
    "unsuccessful trace result requires an error" []
  rejectIf ((!result.traces.isEmpty || !result.supportingArtifacts.isEmpty) &&
      result.completeness ≠ .partialRun) "trace_result_inconsistent"
    "unsuccessful trace artifacts require partial completeness" []
  rejectIf (result.completeness = .complete || result.completeness = .completeEarly ||
      result.completeness = .skipped) "trace_result_inconsistent"
    "unsuccessful trace result cannot be complete" []

def validateTraceArtifactIdentity :
    Except ServiceError (List String) := do
  let artifacts := result.traces ++ result.supportingArtifacts ++ result.log.toList ++
    (result.analysis.bind TraceAnalysisEvidence.artifact).toList
  rejectIf ((result.completeness = .complete || result.completeness = .partialRun) &&
      artifacts.any fun artifact =>
        artifact.sha256.all (fun sha => sha.length ≠ 64) ||
          artifact.sizeBytes.all fun size => size < 0) "trace_result_inconsistent"
    "N15 trace artifacts require immutable digest and size identity" []
  let traceNames := result.traces.map ArtifactRef.relativePath
  rejectIf (!decide traceNames.Nodup) "trace_result_inconsistent"
    "trace result contains duplicate trace artifact names" []
  return traceNames

def validateTraceAnalysisReferences (analysis : TraceAnalysisEvidence) (traceNames : List String) :
    Check :=
  let entries := analysis.detectorSummaries.map TraceDetectorSummary.traceFile ++
    analysis.findings.map TraceAnalysisFinding.traceFile
  entries.forM fun traceFile => do
    rejectIf (traceFile.isNone && traceNames.length > 1) "trace_result_inconsistent"
      "multi-file trace analysis requires trace_file identity" []
    rejectIf (traceFile.any fun file => !traceNames.contains file) "trace_result_inconsistent"
      "trace analysis references an unknown trace_file" []

def validateTraceAnalysisStatus (analysis : TraceAnalysisEvidence) : Check := do
  if result.executionStatus = .succeeded then
    rejectIf (result.completeness = .complete && analysis.executionStatus ≠ .succeeded)
      "trace_result_inconsistent"
      "successful trace result requires successful deterministic analysis" []
  else
    rejectIf (result.executionStatus ≠ .infraError || result.completeness ≠ .partialRun ||
        result.traces.isEmpty) "trace_result_inconsistent"
      "only partial trace infrastructure failure may publish analysis" []
  if analysis.executionStatus = .succeeded then
    rejectIf (analysis.artifact.isNone || analysis.error.isSome) "trace_result_inconsistent"
      "successful deterministic analysis requires an artifact and no error" []
  else
    rejectIf (missingError analysis.error) "trace_result_inconsistent"
      "unsuccessful deterministic analysis requires an error" []

def validateTraceResult : Check := do
  if result.executionStatus = .succeeded then validateTraceSuccessShape result
  else validateTraceFailureShape result
  let traceNames ← validateTraceArtifactIdentity result
  match result.analysis with
  | none =>
    rejectIf (result.executionStatus = .succeeded && result.completeness = .complete)
      "trace_result_inconsistent" "complete trace result requires deterministic analysis" []
  | some analysis => do
    validateTraceAnalysisReferences analysis traceNames
    validateTraceAnalysisStatus result analysis

/-! ### Reductions -/

def reduceStatuses : ReduceOutcome → Option (List ExecutionStatus)
  | .nonReproducible => some [.failed]
  | .staleInput => some [.failed]
  | .infraError => some [.infraError, .timedOut]
  | _ => none

/-- Whether a reduction answers for its input; a reduced one may have moved it. -/
def reduceInputMatches (returned expected : TriggeringDelayConfig)
    (result : ReduceExperimentResult) : Bool :=
  decide (returned = expected) ||
    (result.executionStatus = .succeeded && result.outcome = .reduced &&
      sameArtifactContent returned.artifact expected.artifact &&
      decide ({ returned with artifact := expected.artifact } = expected))

def validateReduceResult (result : ReduceExperimentResult) : Check := do
  let options ← required spec.reduction
  rejectIf (!reduceInputMatches result.inputConfig options.triggeringConfig result)
    "reduce_input_config_mismatch" "reduction input differs from the pending triggering config" []
  if result.outcome = .reduced then
    rejectIf (result.executionStatus ≠ .succeeded || result.report.isNone || result.error.isSome)
      "reduce_result_inconsistent" "reduced outcome requires a successful report and no error" []
  else do
    rejectIf (result.minimizedConfig.isSome || result.report.isSome ||
        !result.essentialPoints.isEmpty || result.essentialPointsArtifact.isSome)
      "reduce_result_inconsistent" "unsuccessful reduction cannot publish reduced artifacts" []
    match reduceStatuses result.outcome with
    | none => .error (.rejected "reduce_result_inconsistent" "unsupported reduction outcome: %s"
        [result.outcome.value])
    | some expected =>
      rejectIf (!expected.contains result.executionStatus) "reduce_result_inconsistent"
        "reduction outcome does not match its execution status" []

/-! ### Any result -/

/-- Whether the payload is of the type that the spec's kind asks for. -/
def expectedTypeMatches : ExperimentResult → Bool
  | .discovery _ => spec.kind = .kernelDiscovery
  | .sanitizer _ => spec.kind = .computeSanitizer
  | .stress _ => spec.kind = .randomDelayStress
  | .trace _ => spec.kind = .regTrace || spec.kind = .memValueTrace
  | .reduction _ => spec.kind = .reduceDelayConfig

def validatePayload : ExperimentResult → Check
  | .discovery r => validateDiscoveryResult spec r
  | .sanitizer r => validateSanitizerResult spec r
  | .stress r => validateStressResult spec r
  | .trace r => validateTraceResult r
  | .reduction r => validateReduceResult spec r

def validateResultAgainstSpec (result : ExperimentResult) : Check := do
  rejectIf (result.kind ≠ spec.kind) "kind_mismatch" "expected %s, got %s"
    [spec.kind.value, result.kind.value]
  rejectIf (!expectedTypeMatches spec result) "kind_mismatch"
    "result payload type does not match the pending spec" []
  validateProvenance spec result
  validatePayload spec result

end CuTracer.Service
