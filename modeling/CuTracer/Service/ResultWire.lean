import CuTracer.Library.Wire
import CuTracer.Service.TraceAnalysis
import Mathlib.Algebra.Order.Ring.Rat

/-! The documents of experiment results: how they are written, and how they are read back, with the
checks that the constructors make. A result is read back as it was, but for outcomes of reductions
that are written no longer. Floats are rationals, rounded by `float` where the source computes. -/

namespace CuTracer.Service

open Wire

/-! ### Enumerations -/

def ExecutionStatus.value : ExecutionStatus → String
  | .succeeded => "succeeded"
  | .failed => "failed"
  | .timedOut => "timed_out"
  | .infraError => "infra_error"

def ExecutionStatus.fromWire : Wire → Decoding ExecutionStatus :=
  asMember [.succeeded, .failed, .timedOut, .infraError] value

def SanitizerOutcome.fromWire : Wire → Decoding SanitizerOutcome :=
  asMember [.clean, .finding, .unknown] value

def ResultCompleteness.fromWire : Wire → Decoding ResultCompleteness :=
  asMember [.complete, .completeEarly, .partialRun, .skipped, .unknown] value

def ExperimentKind.fromWire : Wire → Decoding ExperimentKind :=
  asMember [.kernelDiscovery, .computeSanitizer, .randomDelayStress, .regTrace, .memValueTrace,
    .reduceDelayConfig] value

def StressOutcome.fromWire : Wire → Decoding StressOutcome :=
  asMember [.reproduced, .unattributedReproduction, .notReproduced, .incomplete, .skipped] value

def KernelDiscoveryOutcome.fromWire : Wire → Decoding KernelDiscoveryOutcome :=
  asMember [.discovered, .noKernels, .noMatchingKernels, .tooManyKernels, .infraError] value

/-- What the outcomes that are written no longer are now. -/
def ReduceOutcome.current : ReduceOutcome → ReduceOutcome
  | .replayFailed => .nonReproducible
  | .failed => .infraError
  | outcome => outcome

variable (d : Wire)

/-- `ReduceOutcome.from_wire`. -/
def ReduceOutcome.fromWire : Decoding ReduceOutcome :=
  ReduceOutcome.current <$>
    asMember [.reduced, .nonReproducible, .infraError, .staleInput, .replayFailed, .failed] value d

def TraceAnalysisSeverity.value : TraceAnalysisSeverity → String
  | .error => "error"
  | .warning => "warning"
  | .info => "info"

def TraceAnalysisSeverity.fromWire : Wire → Decoding TraceAnalysisSeverity :=
  asMember [.error, .warning, .info] value

@[simp] theorem executionStatus_fromWire (status : ExecutionStatus) :
    ExecutionStatus.fromWire (.str status.value) = .ok status := by
  cases status <;> exact asMember_value rfl

@[simp] theorem sanitizerOutcome_fromWire (outcome : SanitizerOutcome) :
    SanitizerOutcome.fromWire (.str outcome.value) = .ok outcome := by
  cases outcome <;> exact asMember_value rfl

@[simp] theorem resultCompleteness_fromWire (completeness : ResultCompleteness) :
    ResultCompleteness.fromWire (.str completeness.value) = .ok completeness := by
  cases completeness <;> exact asMember_value rfl

@[simp] theorem experimentKind_fromWire (kind : ExperimentKind) :
    ExperimentKind.fromWire (.str kind.value) = .ok kind := by
  cases kind <;> exact asMember_value rfl

@[simp] theorem stressOutcome_fromWire (outcome : StressOutcome) :
    StressOutcome.fromWire (.str outcome.value) = .ok outcome := by
  cases outcome <;> exact asMember_value rfl

@[simp] theorem kernelDiscoveryOutcome_fromWire (outcome : KernelDiscoveryOutcome) :
    KernelDiscoveryOutcome.fromWire (.str outcome.value) = .ok outcome := by
  cases outcome <;> exact asMember_value rfl

@[simp] theorem reduceOutcome_fromWire (outcome : ReduceOutcome) :
    ReduceOutcome.fromWire (.str outcome.value) = .ok outcome.current := by
  cases outcome <;> rfl

@[simp] theorem severity_fromWire (severity : TraceAnalysisSeverity) :
    TraceAnalysisSeverity.fromWire (.str severity.value) = .ok severity := by
  cases severity <;> exact asMember_value rfl

/-! ### Parts of results -/

def KernelId.toWire (k : KernelId) : Wire :=
  .obj ([("name", .str k.name), ("cubin_hash", .str k.cubinHash)] ++
    k.mangledName.toList.map fun name => ("mangled_name", .str name))

def KernelId.fromWire : Decoding KernelId := do
  return { name := ← d.item "name" asStr
           cubinHash := ← d.item "cubin_hash" asStr
           mangledName := ← d.nullable "mangled_name" asStr }

def SourceLoc.toWire (s : SourceLoc) : Wire := .obj [("file", .str s.file), ("line", .int s.line)]

def SourceLoc.fromWire : Decoding SourceLoc := do
  return { file := ← d.item "file" asStr, line := ← d.item "line" asInt }

def ArtifactRef.toWire (a : ArtifactRef) : Wire :=
  .obj [("uri", .str a.uri), ("relative_path", .str a.relativePath), ("sha256", ofOption .str a.sha256),
    ("size_bytes", ofOption .int a.sizeBytes), ("media_type", .str a.mediaType)]

def ArtifactRef.fromWire : Decoding ArtifactRef := do
  return { uri := ← d.item "uri" asStr
           relativePath := ← d.getOr "relative_path" "" asStr
           sha256 := ← d.nullable "sha256" asStr
           sizeBytes := ← d.nullable "size_bytes" asInt
           mediaType := ← d.getOr "media_type" "text/plain" asStr }

def ExecutionProvenance.toWire (p : ExecutionProvenance) : Wire :=
  .obj [("source_revision", .str p.sourceRevision), ("arch", .str p.arch),
    ("kernel", ofOption KernelId.toWire p.kernel), ("tool_version", .str p.toolVersion),
    ("toolchain_version", .str p.toolchainVersion)]

def ExecutionProvenance.fromWire (d : Wire) : Decoding ExecutionProvenance := do
  return { sourceRevision := ← d.getOr "source_revision" "" asStr
           arch := ← d.getOr "arch" "" asStr
           kernel := ← d.nullable "kernel" KernelId.fromWire
           toolVersion := ← d.getOr "tool_version" "" asStr
           toolchainVersion := ← d.getOr "toolchain_version" "" asStr }

@[simp] theorem KernelId.fromWire_toWire (k : KernelId) : fromWire k.toWire = .ok k := by
  obtain ⟨name, cubinHash, _ | mangledName⟩ := k <;> simp [fromWire, toWire, asOption]

@[simp] theorem SourceLoc.fromWire_toWire (s : SourceLoc) : fromWire s.toWire = .ok s := by
  simp [fromWire, toWire]

@[simp] theorem ArtifactRef.fromWire_toWire (a : ArtifactRef) : fromWire a.toWire = .ok a := by
  simp [fromWire, toWire]

@[simp] theorem asOption_kernel (o : Option KernelId) :
    asOption KernelId.fromWire (ofOption KernelId.toWire o) = .ok o :=
  asOption_ofOption (fun _ => nofun) fun k _ => k.fromWire_toWire

@[simp] theorem asOption_sourceLoc (o : Option SourceLoc) :
    asOption SourceLoc.fromWire (ofOption SourceLoc.toWire o) = .ok o :=
  asOption_ofOption (fun _ => nofun) fun s _ => s.fromWire_toWire

@[simp] theorem asOption_artifact (o : Option ArtifactRef) :
    asOption ArtifactRef.fromWire (ofOption ArtifactRef.toWire o) = .ok o :=
  asOption_ofOption (fun _ => nofun) fun a _ => a.fromWire_toWire

@[simp] theorem asList_artifact (as : List ArtifactRef) :
    asList ArtifactRef.fromWire (.arr (as.map ArtifactRef.toWire)) = .ok as :=
  asList_map fun a _ => a.fromWire_toWire

@[simp] theorem ExecutionProvenance.fromWire_toWire (p : ExecutionProvenance) :
    fromWire p.toWire = .ok p := by
  simp [fromWire, toWire]

/-! ### Kernel discovery -/

def isVisibleArtifactBasename (artifact : ArtifactRef) : Bool :=
  artifact.relativePath ≠ "" && artifact.relativePath.toList.head? ≠ some '.' &&
    !artifact.relativePath.toList.contains '/' && !artifact.relativePath.toList.contains '\\'

/-- `identities == sorted(set(identities))`. -/
def uniqueAndSorted (identities : List (String × String)) : Bool :=
  decide (identities.Pairwise fun a b => a.1 < b.1 ∨ a.1 = b.1 ∧ a.2 < b.2)

/-- `KernelDiscoveryManifest.__post_init__`. -/
def KernelDiscoveryManifest.postInit (m : KernelDiscoveryManifest) : Decoding KernelDiscoveryManifest := do
  let identities := m.kernels.map fun kernel => (kernel.name, kernel.cubinHash)
  reject (blank m.targetUnitId) "kernel discovery manifest requires target_unit_id"
  reject (identities.isEmpty || !uniqueAndSorted identities)
    "discovered kernels must be nonempty, unique, and sorted"
  reject (identities.any fun i => blank i.1 || blank i.2)
    "discovered kernel identities must not be empty"
  reject m.eventArtifacts.isEmpty "kernel discovery manifest requires event artifacts"
  reject (m.eventArtifacts.any fun artifact => !isVisibleArtifactBasename artifact)
    "kernel discovery event artifacts require visible basenames"
  return m

def KernelDiscoveryManifest.toWire (m : KernelDiscoveryManifest) : Wire :=
  .obj [("target_unit_id", .str m.targetUnitId), ("source_revision", .str m.sourceRevision),
    ("arch", .str m.arch), ("kernels", .arr (m.kernels.map KernelId.toWire)),
    ("event_artifacts", .arr (m.eventArtifacts.map ArtifactRef.toWire)),
    ("target_returncode", .int m.targetReturncode),
    ("kernel_filters", .arr (m.kernelFilters.map .str))]

def KernelDiscoveryManifest.fromWire (d : Wire) : Decoding KernelDiscoveryManifest := do
  postInit
    { targetUnitId := ← d.item "target_unit_id" asStr
      sourceRevision := ← d.getOr "source_revision" "" asStr
      arch := ← d.getOr "arch" "" asStr
      kernels := ← d.getOr "kernels" [] (asList KernelId.fromWire)
      eventArtifacts := ← d.getOr "event_artifacts" [] (asList ArtifactRef.fromWire)
      targetReturncode := ← d.getOr "target_returncode" 0 asInt
      kernelFilters := ← d.getOr "kernel_filters" [] (asList asStr) }

def KernelDiscoveryOutcome.expectedStatuses : KernelDiscoveryOutcome → List ExecutionStatus
  | .infraError => [.infraError, .timedOut]
  | _ => [.failed]

/-- `KernelDiscoveryResult.__post_init__`. -/
def KernelDiscoveryResult.postInit (r : KernelDiscoveryResult) : Decoding KernelDiscoveryResult :=
  if r.outcome = .discovered then do
    reject (r.executionStatus ≠ .succeeded || r.discovery.isNone || r.manifestArtifact.isNone ||
      r.error.isSome) "successful kernel discovery requires kernels and artifacts"
    reject (!r.manifestArtifact.any isVisibleArtifactBasename)
      "kernel discovery manifest artifact requires a visible basename"
    return r
  else do
    reject (r.executionStatus = .succeeded) "unsuccessful kernel discovery cannot succeed"
    reject (r.discovery.isSome || r.manifestArtifact.isSome)
      "failed kernel discovery cannot publish partial evidence"
    reject (r.error.all blank) "failed kernel discovery requires an error"
    reject (!r.outcome.expectedStatuses.contains r.executionStatus)
      "kernel discovery outcome does not match its execution status"
    return r

def KernelDiscoveryResult.toWire (r : KernelDiscoveryResult) : Wire :=
  .obj [("kind", .str ExperimentKind.kernelDiscovery.value), ("experiment_id", .str r.experimentId),
    ("execution_status", .str r.executionStatus.value), ("outcome", .str r.outcome.value),
    ("provenance", r.provenance.toWire),
    ("discovery", ofOption KernelDiscoveryManifest.toWire r.discovery),
    ("manifest_artifact", ofOption ArtifactRef.toWire r.manifestArtifact),
    ("duration_s", .float r.durationS), ("error", ofOption .str r.error)]

def KernelDiscoveryResult.fromWire (float : ℚ → ℚ) (d : Wire) : Decoding KernelDiscoveryResult := do
  postInit
    { experimentId := ← d.item "experiment_id" asStr
      executionStatus := ← d.item "execution_status" ExecutionStatus.fromWire
      outcome := ← d.item "outcome" KernelDiscoveryOutcome.fromWire
      provenance := ← d.item "provenance" ExecutionProvenance.fromWire
      discovery := ← d.nullable "discovery" KernelDiscoveryManifest.fromWire
      manifestArtifact := ← d.nullable "manifest_artifact" ArtifactRef.fromWire
      durationS := ← d.getOr "duration_s" 0 (asFloat float)
      error := ← d.nullable "error" asStr }

def KernelDiscoveryResult.Constructed (r : KernelDiscoveryResult) : Prop :=
  (∀ m ∈ r.discovery, m.postInit = .ok m) ∧ r.postInit = .ok r

theorem KernelDiscoveryManifest.fromWire_toWire {m : KernelDiscoveryManifest} (h : m.postInit = .ok m) :
    fromWire m.toWire = .ok m := by
  have hkernels : asList KernelId.fromWire (.arr (m.kernels.map KernelId.toWire)) = .ok m.kernels :=
    asList_map fun k _ => k.fromWire_toWire
  simp [fromWire, toWire, hkernels, h]

theorem KernelDiscoveryResult.fromWire_toWire (float : ℚ → ℚ) {r : KernelDiscoveryResult}
    (h : r.Constructed) : fromWire float r.toWire = .ok r := by
  have hdiscovery : asOption KernelDiscoveryManifest.fromWire
      (ofOption KernelDiscoveryManifest.toWire r.discovery) = .ok r.discovery :=
    asOption_ofOption (fun _ => nofun) fun m hm => m.fromWire_toWire (h.1 m hm)
  simp [fromWire, toWire, hdiscovery, h.2]

/-! ### Sanitizer sweeps -/

def FindingRecord.toWire (f : FindingRecord) : Wire :=
  .obj [("source_tool", .str f.sourceTool), ("error_type", .str f.errorType),
    ("kernel_name", ofOption .str f.kernelName), ("source", ofOption SourceLoc.toWire f.source),
    ("count", .int f.count), ("raw", .str f.raw), ("error_detail", .str f.errorDetail)]

def FindingRecord.fromWire (d : Wire) : Decoding FindingRecord := do
  return { sourceTool := ← d.item "source_tool" asStr
           errorType := ← d.item "error_type" asStr
           kernelName := ← d.nullable "kernel_name" asStr
           source := ← d.nullable "source" SourceLoc.fromWire
           count := ← d.getOr "count" 1 asInt
           raw := ← d.getOr "raw" "" asStr
           errorDetail := ← d.getOr "error_detail" "" asStr }

def SanitizerSummary.toWire (s : SanitizerSummary) : Wire :=
  .obj [("total_hazards", .int s.totalHazards), ("errors", .int s.errors), ("warnings", .int s.warnings),
    ("raw", .str s.raw), ("not_printed", ofOption .int s.notPrinted)]

def SanitizerSummary.fromWire : Decoding SanitizerSummary := do
  return { totalHazards := ← d.item "total_hazards" asInt
           errors := ← d.item "errors" asInt
           warnings := ← d.item "warnings" asInt
           raw := ← d.getOr "raw" "" asStr
           notPrinted := ← d.nullable "not_printed" asInt }

def SanitizerSweepResult.toWire (r : SanitizerSweepResult) : Wire :=
  .obj [("kind", .str ExperimentKind.computeSanitizer.value), ("experiment_id", .str r.experimentId),
    ("execution_status", .str r.executionStatus.value), ("outcome", .str r.outcome.value),
    ("tool", .str r.tool), ("findings", .arr (r.findings.map FindingRecord.toWire)),
    ("provenance", r.provenance.toWire), ("log", ofOption ArtifactRef.toWire r.log),
    ("duration_s", .float r.durationS), ("error", ofOption .str r.error),
    ("summary", ofOption SanitizerSummary.toWire r.summary),
    ("completeness", .str r.completeness.value), ("summary_issues", .arr (r.summaryIssues.map .str)),
    ("output_truncated", .bool r.outputTruncated)]

def SanitizerSweepResult.fromWire (float : ℚ → ℚ) (d : Wire) : Decoding SanitizerSweepResult := do
  return { experimentId := ← d.item "experiment_id" asStr
           executionStatus := ← d.item "execution_status" ExecutionStatus.fromWire
           outcome := ← d.item "outcome" SanitizerOutcome.fromWire
           tool := ← d.item "tool" asStr
           findings := ← d.getOr "findings" [] (asList FindingRecord.fromWire)
           provenance := ← d.item "provenance" ExecutionProvenance.fromWire
           log := ← d.nullable "log" ArtifactRef.fromWire
           durationS := ← d.getOr "duration_s" 0 (asFloat float)
           error := ← d.nullable "error" asStr
           summary := ← d.nullable "summary" SanitizerSummary.fromWire
           completeness := ← d.getOr "completeness" .unknown ResultCompleteness.fromWire
           summaryIssues := ← d.getOr "summary_issues" [] (asList asStr)
           outputTruncated := ← d.getOr "output_truncated" false asBool }

theorem FindingRecord.fromWire_toWire (f : FindingRecord) : fromWire f.toWire = .ok f := by
  simp [fromWire, toWire]

theorem SanitizerSummary.fromWire_toWire (s : SanitizerSummary) : fromWire s.toWire = .ok s := by
  simp [fromWire, toWire]

theorem SanitizerSweepResult.fromWire_toWire (float : ℚ → ℚ) (r : SanitizerSweepResult) :
    fromWire float r.toWire = .ok r := by
  have hfindings : asList FindingRecord.fromWire (.arr (r.findings.map FindingRecord.toWire)) =
      .ok r.findings := asList_map fun f _ => f.fromWire_toWire
  have hsummary : asOption SanitizerSummary.fromWire (ofOption SanitizerSummary.toWire r.summary) =
      .ok r.summary := asOption_ofOption (fun _ => nofun) fun s _ => s.fromWire_toWire
  simp [fromWire, toWire, hfindings, hsummary]

/-! ### Stress tests -/

/-- `OracleSpec.__post_init__`. -/
def OracleSpec.postInit (o : OracleSpec) : Decoding OracleSpec := do
  reject (blank o.oracleId) "oracle_id must not be empty"
  reject (o.argv.head?.all blank) "oracle argv must not be empty"
  reject o.notInterestingExitCodes.isEmpty "not_interesting_exit_codes must not be empty"
  reject (o.notInterestingExitCodes.any fun code => code ≤ 0 || code > 255)
    "not_interesting_exit_codes must be between 1 and 255"
  reject (!decide o.notInterestingExitCodes.Nodup)
    "not_interesting_exit_codes must not contain duplicates"
  return o

def OracleSpec.toWire (o : OracleSpec) : Wire :=
  .obj [("oracle_id", .str o.oracleId), ("argv", .arr (o.argv.map .str)),
    ("not_interesting_exit_codes", .arr (o.notInterestingExitCodes.map .int))]

def OracleSpec.fromWire : Decoding OracleSpec := do
  postInit
    { oracleId := ← d.item "oracle_id" asStr
      argv := ← d.item "argv" (asList asStr)
      notInterestingExitCodes := ← d.getOr "not_interesting_exit_codes" [1] (asList asInt) }

theorem OracleSpec.fromWire_toWire {o : OracleSpec} (h : o.postInit = .ok o) :
    fromWire o.toWire = .ok o := by
  simp [fromWire, toWire, h]

section Rates

variable (float : ℚ → ℚ)

def derivedReproductionRate (completedTrials reproductions : ℤ) : ℚ :=
  if completedTrials = 0 then 0 else float (reproductions / completedTrials)

/-- `math.isclose(actual, expected, rel_tol=1e-3, abs_tol=5e-4)`. -/
def reproductionRatesMatch (actual expected : ℚ) : Bool :=
  let diff := float |expected - actual|
  actual = expected || diff ≤ |float (float (1 / 1000) * expected)| ||
    diff ≤ |float (float (1 / 1000) * actual)| || diff ≤ float (1 / 2000)

@[simp] theorem reproductionRatesMatch_self (rate : ℚ) : reproductionRatesMatch float rate rate = true := by
  simp [reproductionRatesMatch]

/-- `TriggeringDelayConfig.__post_init__`. -/
def TriggeringDelayConfig.postInit (c : TriggeringDelayConfig) : Decoding TriggeringDelayConfig := do
  reject (c.completedTrials < 0 || c.reproductions < 0) "trial counts must not be negative"
  reject (!(0 ≤ c.reproductionRate && c.reproductionRate ≤ 1))
    "reproduction_rate must be between 0 and 1"
  reject (c.reproductions > c.completedTrials) "reproductions cannot exceed completed_trials"
  reject (!reproductionRatesMatch float c.reproductionRate
    (derivedReproductionRate float c.completedTrials c.reproductions))
    "reproduction_rate does not match trial counts"
  reject (c.enabledPointCount.any fun count => count ≤ 0)
    "enabled_point_count must be positive when present"
  return c

def TriggeringDelayConfig.toWire (c : TriggeringDelayConfig) : Wire :=
  .obj [("artifact", c.artifact.toWire), ("work_unit_id", .str c.workUnitId),
    ("target_argv", .arr (c.targetArgv.map .str)), ("oracle", c.oracle.toWire),
    ("source_revision", .str c.sourceRevision), ("arch", .str c.arch),
    ("kernel", ofOption KernelId.toWire c.kernel), ("delay_ns", .int c.delayNs),
    ("enable_prob", .float c.enableProb), ("warpgroup_id", ofOption .int c.warpgroupId),
    ("attempt_index", .int c.attemptIndex), ("completed_trials", .int c.completedTrials),
    ("reproductions", .int c.reproductions), ("reproduction_rate", .float c.reproductionRate),
    ("enabled_point_count", ofOption .int c.enabledPointCount),
    ("cutracer_version", .str c.cutracerVersion), ("toolchain_version", .str c.toolchainVersion)]

def TriggeringDelayConfig.fromWire (d : Wire) : Decoding TriggeringDelayConfig := do
  let completedTrials ← d.getOr "completed_trials" 0 asInt
  let reproductions ← d.getOr "reproductions" 0 asInt
  postInit float
    { artifact := ← d.item "artifact" ArtifactRef.fromWire
      workUnitId := ← d.item "work_unit_id" asStr
      targetArgv := ← d.item "target_argv" (asList asStr)
      oracle := ← d.item "oracle" OracleSpec.fromWire
      sourceRevision := ← d.getOr "source_revision" "" asStr
      arch := ← d.getOr "arch" "" asStr
      kernel := ← d.nullable "kernel" KernelId.fromWire
      delayNs := ← d.item "delay_ns" asInt
      enableProb := ← d.getOr "enable_prob" 1 (asFloat float)
      warpgroupId := ← d.nullable "warpgroup_id" asInt
      attemptIndex := ← d.getOr "attempt_index" 0 asInt
      completedTrials
      reproductions
      reproductionRate := ← d.getOr "reproduction_rate"
        (derivedReproductionRate float completedTrials reproductions) (asFloat float)
      enabledPointCount := ← d.nullable "enabled_point_count" asInt
      cutracerVersion := ← d.getOr "cutracer_version" "" asStr
      toolchainVersion := ← d.getOr "toolchain_version" "" asStr }

def TriggeringDelayConfig.Constructed (c : TriggeringDelayConfig) : Prop :=
  c.oracle.postInit = .ok c.oracle ∧ c.postInit float = .ok c

variable {float} in
theorem TriggeringDelayConfig.fromWire_toWire {c : TriggeringDelayConfig} (h : c.Constructed float) :
    fromWire float c.toWire = .ok c := by
  simp [fromWire, toWire, OracleSpec.fromWire_toWire h.1, h.2]

/-- `StressTestResult.__post_init__`. -/
def StressTestResult.postInit (r : StressTestResult) : Decoding StressTestResult := do
  reject ([r.completedTrials, r.reproductions, r.infraErrors, r.plannedTrials, r.timedOutTrials,
    r.unattributedReproductions].any fun count => count < 0) "stress result counts must not be negative"
  reject (r.reproductions + r.unattributedReproductions > r.completedTrials)
    "attributed and unattributed reproductions cannot exceed completed_trials"
  reject (r.rejectedConfigs.length > 16) "stress result contains too many rejected configs"
  return r

def StressTestResult.reproductionRate (r : StressTestResult) : ℚ :=
  derivedReproductionRate float r.completedTrials r.reproductions

def StressTestResult.toWire (r : StressTestResult) : Wire :=
  .obj [("kind", .str ExperimentKind.randomDelayStress.value), ("experiment_id", .str r.experimentId),
    ("execution_status", .str r.executionStatus.value), ("outcome", .str r.outcome.value),
    ("completed_trials", .int r.completedTrials), ("reproductions", .int r.reproductions),
    ("infra_errors", .int r.infraErrors), ("reproduction_rate", .float (r.reproductionRate float)),
    ("provenance", r.provenance.toWire),
    ("triggering_config", ofOption TriggeringDelayConfig.toWire r.triggeringConfig),
    ("log", ofOption ArtifactRef.toWire r.log),
    ("rejected_configs", .arr (r.rejectedConfigs.map ArtifactRef.toWire)),
    ("duration_s", .float r.durationS), ("error", ofOption .str r.error),
    ("planned_trials", .int r.plannedTrials), ("timed_out_trials", .int r.timedOutTrials),
    ("completeness", .str r.completeness.value),
    ("unattributed_reproductions", .int r.unattributedReproductions)]

def StressTestResult.fromWire (d : Wire) : Decoding StressTestResult := do
  let result ← postInit
    { experimentId := ← d.item "experiment_id" asStr
      executionStatus := ← d.item "execution_status" ExecutionStatus.fromWire
      outcome := ← d.item "outcome" StressOutcome.fromWire
      completedTrials := ← d.getOr "completed_trials" 0 asInt
      reproductions := ← d.getOr "reproductions" 0 asInt
      infraErrors := ← d.getOr "infra_errors" 0 asInt
      provenance := ← d.item "provenance" ExecutionProvenance.fromWire
      triggeringConfig := ← d.nullable "triggering_config" (TriggeringDelayConfig.fromWire float)
      log := ← d.nullable "log" ArtifactRef.fromWire
      rejectedConfigs := ← d.getOr "rejected_configs" [] (asList ArtifactRef.fromWire)
      durationS := ← d.getOr "duration_s" 0 (asFloat float)
      error := ← d.nullable "error" asStr
      plannedTrials := ← d.getOr "planned_trials" 0 asInt
      timedOutTrials := ← d.getOr "timed_out_trials" 0 asInt
      completeness := ← d.getOr "completeness" .unknown ResultCompleteness.fromWire
      unattributedReproductions := ← d.getOr "unattributed_reproductions" 0 asInt }
  let rate ← d.getOr "reproduction_rate" (result.reproductionRate float) (asFloat float)
  reject (!reproductionRatesMatch float rate (result.reproductionRate float))
    "reproduction_rate does not match trial counts"
  return result

def StressTestResult.Constructed (r : StressTestResult) : Prop :=
  (∀ c ∈ r.triggeringConfig, c.Constructed float) ∧ r.postInit = .ok r

variable {float} in
theorem StressTestResult.fromWire_toWire {r : StressTestResult} (h : r.Constructed float) :
    fromWire float (r.toWire float) = .ok r := by
  have hconfig : asOption (TriggeringDelayConfig.fromWire float)
      (ofOption TriggeringDelayConfig.toWire r.triggeringConfig) = .ok r.triggeringConfig :=
    asOption_ofOption (fun _ => nofun) fun c hc => c.fromWire_toWire (h.1 c hc)
  simp [fromWire, toWire, hconfig, h.2]

end Rates

/-! ### Traces -/

def constructed {α : Type} : Except String α → Decoding α := Except.mapError .value

@[simp] theorem constructed_ok {α : Type} (a : α) : constructed (.ok a) = .ok a := rfl

def TraceDetectorSummary.toWire (s : TraceDetectorSummary) : Wire :=
  .obj [("source_tool", .str s.sourceTool), ("sub_component", .str s.subComponent),
    ("verdict", .str s.verdict), ("severity", .str s.severity.value),
    ("finding_count", .int s.findingCount), ("description", .str s.description),
    ("trace_file", ofOption .str s.traceFile)]

def TraceDetectorSummary.fromWire (d : Wire) : Decoding TraceDetectorSummary := do
  constructed (postInit
    { sourceTool := ← d.item "source_tool" asStr
      subComponent := ← d.item "sub_component" asStr
      verdict := ← d.item "verdict" asStr
      severity := ← d.item "severity" TraceAnalysisSeverity.fromWire
      findingCount := ← d.getOr "finding_count" 0 asInt
      description := ← d.getOr "description" "" asStr
      traceFile := ← d.nullable "trace_file" asStr })

def TraceAnalysisFinding.toWire (f : TraceAnalysisFinding) : Wire :=
  .obj [("source_tool", .str f.sourceTool), ("sub_component", .str f.subComponent),
    ("severity", .str f.severity.value), ("category", .str f.category),
    ("description", .str f.description), ("ctas", .arr (f.ctas.map fun cta => .arr (cta.map .int))),
    ("warps", .arr (f.warps.map .int)), ("pcs", .arr (f.pcs.map .str)),
    ("trace_indices", .arr (f.traceIndices.map .int)),
    ("source_locations", .arr (f.sourceLocations.map (ofOption SourceLoc.toWire))),
    ("trace_file", ofOption .str f.traceFile)]

def TraceAnalysisFinding.fromWire (d : Wire) : Decoding TraceAnalysisFinding := do
  constructed (postInit
    { sourceTool := ← d.item "source_tool" asStr
      subComponent := ← d.item "sub_component" asStr
      severity := ← d.item "severity" TraceAnalysisSeverity.fromWire
      category := ← d.item "category" asStr
      description := ← d.getOr "description" "" asStr
      ctas := ← d.getOr "ctas" [] (asList (asList asInt))
      warps := ← d.getOr "warps" [] (asList asInt)
      pcs := ← d.getOr "pcs" [] (asList asStr)
      traceIndices := ← d.getOr "trace_indices" [] (asList asInt)
      sourceLocations := ← d.getOr "source_locations" [] (asList (asOption SourceLoc.fromWire))
      traceFile := ← d.nullable "trace_file" asStr })

/-- Capture summaries are written if there are any. -/
def TraceAnalysisEvidence.toWire (e : TraceAnalysisEvidence) : Wire :=
  .obj ([("schema_version", .int 1), ("analyzer", .str e.analyzer),
    ("execution_status", .str e.executionStatus.value),
    ("detector_summaries", .arr (e.detectorSummaries.map TraceDetectorSummary.toWire)),
    ("findings", .arr (e.findings.map TraceAnalysisFinding.toWire)),
    ("total_findings", .int e.totalFindings), ("warnings", .arr (e.warnings.map .str)),
    ("artifact", ofOption ArtifactRef.toWire e.artifact), ("error", ofOption .str e.error)] ++
    if e.captureSummaries ≠ [] ∨ e.omittedCaptureSummaries ≠ 0 then
      [("capture_summaries", .arr (e.captureSummaries.map .raw)),
        ("omitted_capture_summaries", .int e.omittedCaptureSummaries)]
    else [])

def TraceAnalysisEvidence.fromWire (d : Wire) : Decoding TraceAnalysisEvidence := do
  reject (!(← d.has "schema_version")) "TraceAnalysisEvidence requires schema_version"
  reject (!(← d.has "total_findings")) "TraceAnalysisEvidence requires total_findings"
  let evidence : TraceAnalysisEvidence :=
    { analyzer := ← d.item "analyzer" asStr
      executionStatus := ← d.item "execution_status" ExecutionStatus.fromWire
      detectorSummaries := ← d.getOr "detector_summaries" [] (asList TraceDetectorSummary.fromWire)
      findings := ← d.getOr "findings" [] (asList TraceAnalysisFinding.fromWire)
      totalFindings := ← d.item "total_findings" asInt
      warnings := ← d.getOr "warnings" [] (asList asStr)
      artifact := ← d.nullable "artifact" ArtifactRef.fromWire
      error := ← d.nullable "error" asStr
      captureSummaries := ← d.getOr "capture_summaries" [] (asList asText)
      omittedCaptureSummaries := ← d.getOr "omitted_capture_summaries" 0 asInt }
  d.item "schema_version" (asVersion 1 "unsupported TraceAnalysisEvidence schema_version")
  constructed evidence.postInit

def TraceAnalysisEvidence.Constructed (e : TraceAnalysisEvidence) : Prop :=
  (∀ s ∈ e.detectorSummaries, s.postInit = .ok s) ∧ (∀ f ∈ e.findings, f.postInit = .ok f) ∧
    e.postInit = .ok e

theorem TraceDetectorSummary.fromWire_toWire {s : TraceDetectorSummary} (h : s.postInit = .ok s) :
    fromWire s.toWire = .ok s := by
  simp [fromWire, toWire, h]

theorem TraceAnalysisFinding.fromWire_toWire {f : TraceAnalysisFinding} (h : f.postInit = .ok f) :
    fromWire f.toWire = .ok f := by
  have hctas : asList (asList asInt) (.arr (f.ctas.map fun cta => .arr (cta.map .int))) = .ok f.ctas :=
    asList_map fun cta _ => asList_int cta
  have hlocations : asList (asOption SourceLoc.fromWire)
      (.arr (f.sourceLocations.map (ofOption SourceLoc.toWire))) = .ok f.sourceLocations :=
    asList_map fun location _ => asOption_sourceLoc location
  simp [fromWire, toWire, hctas, hlocations, h]

theorem TraceAnalysisEvidence.fromWire_toWire {e : TraceAnalysisEvidence} (h : e.Constructed) :
    fromWire e.toWire = .ok e := by
  have hsummaries : asList TraceDetectorSummary.fromWire
      (.arr (e.detectorSummaries.map TraceDetectorSummary.toWire)) = .ok e.detectorSummaries :=
    asList_map fun s hs => s.fromWire_toWire (h.1 s hs)
  have hfindings : asList TraceAnalysisFinding.fromWire
      (.arr (e.findings.map TraceAnalysisFinding.toWire)) = .ok e.findings :=
    asList_map fun f hf => f.fromWire_toWire (h.2.1 f hf)
  by_cases hcaptures : e.captureSummaries ≠ [] ∨ e.omittedCaptureSummaries ≠ 0
  · simp [fromWire, toWire, if_pos hcaptures, hsummaries, hfindings, h.2.2]
  · obtain ⟨hnone, hzero⟩ := not_or.mp hcaptures
    have hempty : { e with captureSummaries := [], omittedCaptureSummaries := 0 } = e := by
      rw [← not_not.mp hnone, ← not_not.mp hzero]
    simp [fromWire, toWire, if_neg hcaptures, hsummaries, hfindings, hempty, h.2.2]

def deduplicateArtifactRefs (refs : List ArtifactRef) : List ArtifactRef :=
  refs.foldl (fun unique ref => if ref ∈ unique then unique else unique ++ [ref]) []

/-- `TraceExperimentResult.__post_init__`, with the primary trace that the constructor was given. -/
def TraceExperimentResult.postInit (trace : Option ArtifactRef) (r : TraceExperimentResult) :
    Decoding TraceExperimentResult := do
  reject (r.mode ≠ .regTrace && r.mode ≠ .memValueTrace) ("invalid trace result mode: " ++ r.mode.value)
  reject (trace.isSome && r.traces ≠ [] && trace ≠ r.traces.head?) "primary trace must equal traces[0]"
  let traces := deduplicateArtifactRefs (trace.toList ++ r.traces)
  reject (!decide (traces.map ArtifactRef.relativePath).Nodup)
    "trace result contains duplicate trace artifact names"
  let supportingArtifacts := deduplicateArtifactRefs r.supportingArtifacts
  reject (supportingArtifacts.any fun artifact => traces.contains artifact)
    "raw traces and supporting artifacts cannot overlap"
  return { r with traces, supportingArtifacts }

def TraceExperimentResult.toWire (r : TraceExperimentResult) : Wire :=
  .obj [("kind", .str r.mode.value), ("experiment_id", .str r.experimentId),
    ("execution_status", .str r.executionStatus.value), ("mode", .str r.mode.value),
    ("provenance", r.provenance.toWire), ("trace", ofOption ArtifactRef.toWire r.traces.head?),
    ("traces", .arr (r.traces.map ArtifactRef.toWire)),
    ("supporting_artifacts", .arr (r.supportingArtifacts.map ArtifactRef.toWire)),
    ("log", ofOption ArtifactRef.toWire r.log),
    ("analysis", ofOption TraceAnalysisEvidence.toWire r.analysis), ("duration_s", .float r.durationS),
    ("analysis_duration_s", .float r.analysisDurationS), ("error", ofOption .str r.error),
    ("completeness", .str r.completeness.value)]

def TraceExperimentResult.fromWire (float : ℚ → ℚ) (d : Wire) : Decoding TraceExperimentResult := do
  let experimentId ← d.item "experiment_id" asStr
  let executionStatus ← d.item "execution_status" ExecutionStatus.fromWire
  let kind ← d.item "kind" .ok
  let mode ← ExperimentKind.fromWire (← d.getOr "mode" kind .ok)
  let provenance ← d.item "provenance" ExecutionProvenance.fromWire
  let trace ← d.nullable "trace" ArtifactRef.fromWire
  postInit trace
    { experimentId, executionStatus, mode, provenance
      log := ← d.nullable "log" ArtifactRef.fromWire
      analysis := ← d.nullable "analysis" TraceAnalysisEvidence.fromWire
      durationS := ← d.getOr "duration_s" 0 (asFloat float)
      analysisDurationS := ← d.getOr "analysis_duration_s" 0 (asFloat float)
      error := ← d.nullable "error" asStr
      traces := (← d.nullable "traces" (asList ArtifactRef.fromWire)).getD []
      supportingArtifacts := (← d.nullable "supporting_artifacts" (asList ArtifactRef.fromWire)).getD []
      completeness := ← d.getOr "completeness" .unknown ResultCompleteness.fromWire }

/-- What the constructors have made. -/
def TraceExperimentResult.Constructed (r : TraceExperimentResult) : Prop :=
  (∀ e ∈ r.analysis, e.Constructed) ∧ ∃ trace r', postInit trace r' = .ok r

theorem deduplicate_of_nodup {refs unique : List ArtifactRef} (h : (unique ++ refs).Nodup) :
    refs.foldl (fun unique ref => if ref ∈ unique then unique else unique ++ [ref]) unique =
      unique ++ refs := by
  induction refs generalizing unique with
  | nil => rw [List.append_nil]; rfl
  | cons ref refs ih =>
    have hnew : ref ∉ unique := fun hmem =>
      List.disjoint_of_nodup_append h hmem List.mem_cons_self
    rw [List.foldl_cons, if_neg hnew, ih (by rwa [List.append_assoc]), List.append_assoc]
    rfl

theorem deduplicate_nodup {refs unique : List ArtifactRef} (h : unique.Nodup) :
    (refs.foldl (fun unique ref => if ref ∈ unique then unique else unique ++ [ref]) unique).Nodup := by
  induction refs generalizing unique with
  | nil => exact h
  | cons ref refs ih =>
    rw [List.foldl_cons]
    split_ifs with hmem
    · exact ih h
    · refine ih (List.nodup_append.mpr ⟨h, List.nodup_singleton ref, ?_⟩)
      rintro a ha b hb rfl
      exact hmem (List.mem_singleton.mp hb ▸ ha)

theorem deduplicateArtifactRefs_self {refs : List ArtifactRef} (h : refs.Nodup) :
    deduplicateArtifactRefs refs = refs := deduplicate_of_nodup h

/-- The primary trace, in front of the traces that it is the first of, adds nothing. -/
theorem deduplicate_head {refs : List ArtifactRef} (h : refs.Nodup) :
    deduplicateArtifactRefs (refs.head?.toList ++ refs) = refs := by
  cases refs with
  | nil => rfl
  | cons ref refs =>
    have hstart : deduplicateArtifactRefs (ref :: ref :: refs) = deduplicateArtifactRefs (ref :: refs) := by
      simp [deduplicateArtifactRefs]
    exact hstart.trans (deduplicateArtifactRefs_self h)

/-- What a constructor has made, it leaves as it is. -/
theorem TraceExperimentResult.postInit_self {trace : Option ArtifactRef} {r r' : TraceExperimentResult}
    (h : postInit trace r' = .ok r) : postInit r.traces.head? r = .ok r := by
  unfold postInit at h
  obtain ⟨hmode, h⟩ := passed h
  obtain ⟨-, h⟩ := passed h
  obtain ⟨hnames, h⟩ := passed h
  obtain ⟨hoverlap, h⟩ := passed h
  cases h
  have htraces : deduplicateArtifactRefs (_ ++ deduplicateArtifactRefs (trace.toList ++ r'.traces)) = _ :=
    deduplicate_head (deduplicate_nodup List.nodup_nil)
  have hsupporting : deduplicateArtifactRefs (deduplicateArtifactRefs r'.supportingArtifacts) = _ :=
    deduplicateArtifactRefs_self (deduplicate_nodup List.nodup_nil)
  simp only [postInit, htraces, hsupporting, hmode, hnames, hoverlap, reject_false, ok_bind]
  simp

theorem TraceExperimentResult.mode_of_constructed {r : TraceExperimentResult} (h : r.Constructed) :
    r.mode = .regTrace ∨ r.mode = .memValueTrace := by
  obtain ⟨-, trace, r', hr⟩ := h
  have hmode := (passed (postInit_self hr)).1
  by_contra hne
  simp [not_or.mp hne] at hmode

theorem TraceExperimentResult.fromWire_toWire (float : ℚ → ℚ) {r : TraceExperimentResult}
    (h : r.Constructed) : fromWire float r.toWire = .ok r := by
  obtain ⟨hanalysis, trace, r', hr⟩ := h
  have hevidence : asOption TraceAnalysisEvidence.fromWire
      (ofOption TraceAnalysisEvidence.toWire r.analysis) = .ok r.analysis :=
    asOption_ofOption (fun _ => nofun) fun e he => e.fromWire_toWire (hanalysis e he)
  have hlist (refs : List ArtifactRef) : asOption (asList ArtifactRef.fromWire)
      (ofOption (fun refs => .arr (refs.map ArtifactRef.toWire)) (some refs)) = .ok (some refs) :=
    asOption_ofOption (fun _ => nofun) fun refs _ => asList_artifact refs
  simp only [ofOption] at hlist
  simp [fromWire, toWire, hevidence, hlist, postInit_self hr]

/-! ### Reductions -/

def EssentialDelayPoint.toWire (p : EssentialDelayPoint) : Wire :=
  .obj [("kernel_name", .str p.kernelName), ("pc_offset", .str p.pcOffset), ("sass", .str p.sass),
    ("delay_ns", .int p.delayNs)]

def EssentialDelayPoint.fromWire : Decoding EssentialDelayPoint := do
  return { kernelName := ← d.getOr "kernel_name" "" asStr
           pcOffset := ← d.getOr "pc_offset" "" asStr
           sass := ← d.getOr "sass" "" asStr
           delayNs := ← d.getOr "delay_ns" 0 asInt }

def ReduceExperimentResult.toWire (r : ReduceExperimentResult) : Wire :=
  .obj [("kind", .str ExperimentKind.reduceDelayConfig.value), ("experiment_id", .str r.experimentId),
    ("execution_status", .str r.executionStatus.value), ("outcome", .str r.outcome.value),
    ("provenance", r.provenance.toWire), ("input_config", r.inputConfig.toWire),
    ("minimized_config", ofOption ArtifactRef.toWire r.minimizedConfig),
    ("report", ofOption ArtifactRef.toWire r.report),
    ("essential_points_artifact", ofOption ArtifactRef.toWire r.essentialPointsArtifact),
    ("essential_points", .arr (r.essentialPoints.map EssentialDelayPoint.toWire)),
    ("duration_s", .float r.durationS), ("error", ofOption .str r.error), ("note", .str r.note)]

def ReduceExperimentResult.fromWire (float : ℚ → ℚ) (d : Wire) : Decoding ReduceExperimentResult := do
  return { experimentId := ← d.item "experiment_id" asStr
           executionStatus := ← d.item "execution_status" ExecutionStatus.fromWire
           outcome := ← d.item "outcome" ReduceOutcome.fromWire
           provenance := ← d.item "provenance" ExecutionProvenance.fromWire
           inputConfig := ← d.item "input_config" (TriggeringDelayConfig.fromWire float)
           minimizedConfig := ← d.nullable "minimized_config" ArtifactRef.fromWire
           report := ← d.nullable "report" ArtifactRef.fromWire
           essentialPointsArtifact := ← d.nullable "essential_points_artifact" ArtifactRef.fromWire
           essentialPoints := ← d.getOr "essential_points" [] (asList EssentialDelayPoint.fromWire)
           durationS := ← d.getOr "duration_s" 0 (asFloat float)
           error := ← d.nullable "error" asStr
           note := ← d.getOr "note" "" asStr }

theorem EssentialDelayPoint.fromWire_toWire (p : EssentialDelayPoint) : fromWire p.toWire = .ok p := by
  simp [fromWire, toWire]

theorem ReduceExperimentResult.fromWire_toWire {float : ℚ → ℚ} {r : ReduceExperimentResult}
    (h : r.inputConfig.Constructed float) :
    fromWire float r.toWire = .ok { r with outcome := r.outcome.current } := by
  have hpoints : asList EssentialDelayPoint.fromWire
      (.arr (r.essentialPoints.map EssentialDelayPoint.toWire)) = .ok r.essentialPoints :=
    asList_map fun p _ => p.fromWire_toWire
  simp [fromWire, toWire, hpoints, TriggeringDelayConfig.fromWire_toWire h]

/-! ### Results -/

namespace ExperimentResult

variable (float : ℚ → ℚ)

/-- `result.to_dict()`. -/
def toWire : ExperimentResult → Wire
  | discovery r => r.toWire
  | sanitizer r => r.toWire
  | stress r => r.toWire float
  | trace r => r.toWire
  | reduction r => r.toWire

/-- `experiment_result_from_dict`. -/
def fromWire (d : Wire) : Decoding ExperimentResult := do
  match ← d.item "kind" ExperimentKind.fromWire with
  | .kernelDiscovery => discovery <$> KernelDiscoveryResult.fromWire float d
  | .computeSanitizer => sanitizer <$> SanitizerSweepResult.fromWire float d
  | .randomDelayStress => stress <$> StressTestResult.fromWire float d
  | .regTrace | .memValueTrace => trace <$> TraceExperimentResult.fromWire float d
  | .reduceDelayConfig => reduction <$> ReduceExperimentResult.fromWire float d

/-- What the constructors have made. -/
def Constructed : ExperimentResult → Prop
  | discovery r => r.Constructed
  | sanitizer _ => True
  | stress r => r.Constructed float
  | trace r => r.Constructed
  | reduction r => r.inputConfig.Constructed float

/-- A result as it is read back: outcomes that are written no longer are read as current ones. -/
def current : ExperimentResult → ExperimentResult
  | reduction r => reduction { r with outcome := r.outcome.current }
  | r => r

variable {float} {r : ExperimentResult}

theorem item_kind : (r.toWire float).item "kind" ExperimentKind.fromWire = .ok r.kind := by
  cases r with
  | discovery r => exact experimentKind_fromWire .kernelDiscovery
  | sanitizer r => exact experimentKind_fromWire .computeSanitizer
  | stress r => exact experimentKind_fromWire .randomDelayStress
  | trace r => exact experimentKind_fromWire r.mode
  | reduction r => exact experimentKind_fromWire .reduceDelayConfig

/-- A result is read back as it was, but for outcomes that are written no longer. -/
theorem fromWire_toWire (h : r.Constructed float) : fromWire float (r.toWire float) = .ok r.current := by
  rw [fromWire, item_kind, ok_bind]
  cases r with
  | discovery r => simp [kind, toWire, KernelDiscoveryResult.fromWire_toWire float h, current]
  | sanitizer r => simp [kind, toWire, SanitizerSweepResult.fromWire_toWire, current]
  | stress r => simp [kind, toWire, StressTestResult.fromWire_toWire h, current]
  | trace r =>
    rcases TraceExperimentResult.mode_of_constructed h with hmode | hmode <;>
      simp [kind, toWire, hmode, TraceExperimentResult.fromWire_toWire float h, current]
  | reduction r => simp [kind, toWire, ReduceExperimentResult.fromWire_toWire h, current]

end ExperimentResult

end CuTracer.Service
