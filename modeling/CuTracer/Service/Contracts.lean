import CuTracer.Amdgcn.Text
import Mathlib.Data.Rat.Init

/-! The records of an analysis session: experiments, their results, decisions
and the session itself. -/

namespace CuTracer.Service

/-- `not s.strip()`. -/
def blank (s : String) : Bool := s.toList.all Amdgcn.isSpace

/-! ### Enumerations -/

inductive Confidence where
  | h | m | l
  deriving DecidableEq

inductive EvidenceSufficiency where
  | sufficient | insufficient | degraded
  deriving DecidableEq

inductive RaceClass where
  | none | unknown | raw | war | waw | atomicity | synchronization | lifetime | unclassified
  deriving DecidableEq

inductive ExecutionStatus where
  | succeeded | failed | timedOut | infraError
  deriving DecidableEq

inductive SanitizerOutcome where
  | clean | finding | unknown
  deriving DecidableEq

def SanitizerOutcome.value : SanitizerOutcome → String
  | .clean => "clean"
  | .finding => "finding"
  | .unknown => "unknown"

inductive ResultCompleteness where
  | complete | completeEarly | partialRun | skipped | unknown
  deriving DecidableEq

def ResultCompleteness.value : ResultCompleteness → String
  | .complete => "complete"
  | .completeEarly => "complete_early"
  | .partialRun => "partial"
  | .skipped => "skipped"
  | .unknown => "unknown"

inductive ExperimentKind where
  | kernelDiscovery | computeSanitizer | randomDelayStress | regTrace | memValueTrace
  | reduceDelayConfig
  deriving DecidableEq

def ExperimentKind.value : ExperimentKind → String
  | .kernelDiscovery => "kernel_discovery"
  | .computeSanitizer => "compute_sanitizer"
  | .randomDelayStress => "random_delay_stress"
  | .regTrace => "reg_trace"
  | .memValueTrace => "mem_value_trace"
  | .reduceDelayConfig => "reduce_delay_config"

inductive ExperimentPhase where
  | initial | followup
  deriving DecidableEq

def ExperimentPhase.value : ExperimentPhase → String
  | .initial => "initial"
  | .followup => "followup"

inductive StressOutcome where
  | reproduced | unattributedReproduction | notReproduced | incomplete | skipped
  deriving DecidableEq

def StressOutcome.value : StressOutcome → String
  | .reproduced => "reproduced"
  | .unattributedReproduction => "unattributed_reproduction"
  | .notReproduced => "not_reproduced"
  | .incomplete => "incomplete"
  | .skipped => "skipped"

inductive KernelDiscoveryOutcome where
  | discovered | noKernels | noMatchingKernels | tooManyKernels | infraError
  deriving DecidableEq

def KernelDiscoveryOutcome.value : KernelDiscoveryOutcome → String
  | .discovered => "discovered"
  | .noKernels => "no_kernels"
  | .noMatchingKernels => "no_matching_kernels"
  | .tooManyKernels => "too_many_kernels"
  | .infraError => "infra_error"

inductive ReduceOutcome where
  | reduced | nonReproducible | infraError | staleInput | replayFailed | failed
  deriving DecidableEq

def ReduceOutcome.value : ReduceOutcome → String
  | .reduced => "reduced"
  | .nonReproducible => "non_reproducible"
  | .infraError => "infra_error"
  | .staleInput => "stale_input"
  | .replayFailed => "replay_failed"
  | .failed => "failed"

inductive DecisionKind where
  | final | followupRequired | inconclusive
  deriving DecidableEq

inductive TriageOutcome where
  | analyze | finish | inconclusive
  deriving DecidableEq

inductive SessionStatus where
  | waitingChildren | waitingInitial | waitingTriage | waitingReasoner | waitingFollowup
  | completed | inconclusive | failed
  deriving DecidableEq

def SessionStatus.value : SessionStatus → String
  | .waitingChildren => "waiting_children"
  | .waitingInitial => "waiting_initial"
  | .waitingTriage => "waiting_triage"
  | .waitingReasoner => "waiting_reasoner"
  | .waitingFollowup => "waiting_followup"
  | .completed => "completed"
  | .inconclusive => "inconclusive"
  | .failed => "failed"

inductive ReportPublicationStatus where
  | notReady | pending | published | failed
  deriving DecidableEq

def ReportPublicationStatus.value : ReportPublicationStatus → String
  | .notReady => "not_ready"
  | .pending => "pending"
  | .published => "published"
  | .failed => "failed"

inductive TraceConfigSource where
  | triggering | minimized
  deriving DecidableEq

def TraceConfigSource.value : TraceConfigSource → String
  | .triggering => "triggering"
  | .minimized => "minimized"

inductive TraceInstructionCategory where
  | mma | tma | sync
  deriving DecidableEq

def TraceInstructionCategory.value : TraceInstructionCategory → String
  | .mma => "mma"
  | .tma => "tma"
  | .sync => "sync"

inductive TraceAnalysisSeverity where
  | error | warning | info
  deriving DecidableEq

/-! ### Targets -/

structure KernelId where
  name : String
  cubinHash : String
  mangledName : Option String
  deriving DecidableEq

/-- `==` of kernels, which leaves the mangled name out. -/
def KernelId.same (a b : KernelId) : Bool := a.name = b.name && a.cubinHash = b.cubinHash

def sameKernel : Option KernelId → Option KernelId → Bool
  | none, none => true
  | some a, some b => a.same b
  | _, _ => false

/-- A kernel whose name and checksum are both present. -/
def pinned : Option KernelId → Bool
  | none => false
  | some kernel => !blank kernel.name && !blank kernel.cubinHash

structure ArtifactRef where
  uri : String
  relativePath : String
  sha256 : Option String
  sizeBytes : Option ℤ
  mediaType : String
  deriving DecidableEq

/-- `_expected_artifact_identity`, or `none` where it raises. -/
def ArtifactRef.identity (ref : ArtifactRef) : Option (String × ℤ) :=
  match ref.sha256, ref.sizeBytes with
  | some sha, some size =>
    if sha.length ≠ 64 ∨ !(sha.toList.all fun c => "0123456789abcdefABCDEF".toList.contains c) ∨
        size < 0 then none
    else some (sha.map Char.toLower, size)
  | _, _ => none

def sameArtifactContent (left right : ArtifactRef) : Bool :=
  match left.identity, right.identity with
  | some a, some b => a = b
  | _, _ => false

structure OracleSpec where
  oracleId : String
  argv : List String
  notInterestingExitCodes : List ℤ
  deriving DecidableEq

structure WorkUnit where
  unitId : String
  argv : List String
  workload : String
  testId : String
  cwd : String
  arch : String
  sourceRevision : String
  kernel : Option KernelId
  oracle : Option OracleSpec
  env : List (String × String)
  kernelFilters : List String
  deriving DecidableEq

/-- `==` of work units. -/
def WorkUnit.same (a b : WorkUnit) : Bool :=
  decide ({ a with kernel := none } = { b with kernel := none }) && sameKernel a.kernel b.kernel

structure TriggeringDelayConfig where
  artifact : ArtifactRef
  workUnitId : String
  targetArgv : List String
  oracle : OracleSpec
  sourceRevision : String
  arch : String
  kernel : Option KernelId
  delayNs : ℤ
  enableProb : ℚ
  warpgroupId : Option ℤ
  attemptIndex : ℤ
  completedTrials : ℤ
  reproductions : ℤ
  reproductionRate : ℚ
  enabledPointCount : Option ℤ
  cutracerVersion : String
  toolchainVersion : String
  deriving DecidableEq

structure ExecutionProvenance where
  sourceRevision : String
  arch : String
  kernel : Option KernelId
  toolVersion : String
  toolchainVersion : String
  deriving DecidableEq

/-! ### Experiments -/

structure KernelDiscoveryOptions where
  maxKernels : ℤ
  deriving DecidableEq

structure StressOptions where
  delayLadderNs : List ℤ
  attemptsPerDelay : ℤ
  enableProb : ℚ
  warpgroupIds : List ℤ
  stopOnFirstReproduction : Bool
  deriving DecidableEq

/-- `StressOptions()`. -/
def StressOptions.default : StressOptions := ⟨[1000, 5000, 10000, 50000, 100000], 3, 1, [], true⟩

def StressOptions.plannedTrials (o : StressOptions) : ℤ :=
  o.delayLadderNs.length * (if o.warpgroupIds.isEmpty then 1 else o.warpgroupIds.length) *
    o.attemptsPerDelay

structure TraceSelector where
  kernel : Option KernelId
  launchId : Option ℤ
  warpId : Option ℤ
  warpgroupId : Option ℤ
  pcOffsets : List String
  instructionCategories : List TraceInstructionCategory
  configSource : Option TraceConfigSource
  deriving DecidableEq

structure TraceOptions where
  mode : ExperimentKind
  traceSizeLimitMb : ℤ
  selector : TraceSelector
  configArtifact : Option ArtifactRef
  instrumentModes : List String
  deriving DecidableEq

structure ReduceOptions where
  triggeringConfig : TriggeringDelayConfig
  strategy : String
  confidenceRuns : ℤ
  requireKernelIdentity : Bool
  deriving DecidableEq

structure ExperimentSpec where
  experimentId : String
  sessionId : String
  phase : ExperimentPhase
  kind : ExperimentKind
  unit : WorkUnit
  roundIndex : ℕ
  discovery : Option KernelDiscoveryOptions
  sanitizerTool : Option String
  stress : Option StressOptions
  trace : Option TraceOptions
  reduction : Option ReduceOptions
  deriving DecidableEq

/-! ### Results -/

structure KernelDiscoveryManifest where
  targetUnitId : String
  sourceRevision : String
  arch : String
  kernels : List KernelId
  eventArtifacts : List ArtifactRef
  targetReturncode : ℤ
  kernelFilters : List String
  deriving DecidableEq

structure KernelDiscoveryResult where
  experimentId : String
  executionStatus : ExecutionStatus
  outcome : KernelDiscoveryOutcome
  provenance : ExecutionProvenance
  discovery : Option KernelDiscoveryManifest
  manifestArtifact : Option ArtifactRef
  durationS : ℚ
  error : Option String
  deriving DecidableEq

structure SourceLoc where
  file : String
  line : ℤ
  deriving DecidableEq

structure FindingRecord where
  sourceTool : String
  errorType : String
  kernelName : Option String
  source : Option SourceLoc
  count : ℤ
  raw : String
  errorDetail : String
  deriving DecidableEq

structure SanitizerSummary where
  totalHazards : ℤ
  errors : ℤ
  warnings : ℤ
  raw : String
  notPrinted : Option ℤ
  deriving DecidableEq

def SanitizerSummary.isPositive (s : SanitizerSummary) : Bool :=
  s.totalHazards > 0 || s.errors > 0 || s.warnings > 0

def SanitizerSummary.isZero (s : SanitizerSummary) : Bool :=
  s.totalHazards = 0 && s.errors = 0 && s.warnings = 0

structure SanitizerSweepResult where
  experimentId : String
  executionStatus : ExecutionStatus
  outcome : SanitizerOutcome
  tool : String
  findings : List FindingRecord
  provenance : ExecutionProvenance
  log : Option ArtifactRef
  durationS : ℚ
  error : Option String
  summary : Option SanitizerSummary
  completeness : ResultCompleteness
  summaryIssues : List String
  outputTruncated : Bool
  deriving DecidableEq

namespace SanitizerSweepResult

def hasPositiveSignal (r : SanitizerSweepResult) : Bool :=
  r.outcome = .finding || !r.findings.isEmpty || r.summary.any SanitizerSummary.isPositive

def hasTrustworthyClean (r : SanitizerSweepResult) : Bool :=
  r.executionStatus = .succeeded &&
    ["initcheck", "memcheck", "racecheck", "synccheck"].contains r.tool &&
    r.outcome = .clean && r.completeness = .complete && r.summary.any SanitizerSummary.isZero &&
    r.summaryIssues.isEmpty && r.findings.isEmpty

end SanitizerSweepResult

structure StressTestResult where
  experimentId : String
  executionStatus : ExecutionStatus
  outcome : StressOutcome
  completedTrials : ℤ
  reproductions : ℤ
  infraErrors : ℤ
  provenance : ExecutionProvenance
  triggeringConfig : Option TriggeringDelayConfig
  log : Option ArtifactRef
  durationS : ℚ
  error : Option String
  plannedTrials : ℤ
  timedOutTrials : ℤ
  completeness : ResultCompleteness
  unattributedReproductions : ℤ
  rejectedConfigs : List ArtifactRef
  deriving DecidableEq

namespace StressTestResult

def hasPositiveSignal (r : StressTestResult) : Bool :=
  r.outcome = .reproduced || r.outcome = .unattributedReproduction || r.reproductions > 0 ||
    r.unattributedReproductions > 0 || r.triggeringConfig.isSome

def hasTrustworthyNonReproduction (r : StressTestResult) : Bool :=
  r.executionStatus = .succeeded && r.outcome = .notReproduced && r.completeness = .complete &&
    r.plannedTrials > 0 && r.completedTrials = r.plannedTrials && r.reproductions = 0 &&
    r.infraErrors = 0 && r.timedOutTrials = 0 && r.unattributedReproductions = 0 &&
    r.triggeringConfig.isNone

end StressTestResult

structure TraceDetectorSummary where
  sourceTool : String
  subComponent : String
  verdict : String
  severity : TraceAnalysisSeverity
  findingCount : ℤ
  description : String
  traceFile : Option String
  deriving DecidableEq

structure TraceAnalysisFinding where
  sourceTool : String
  subComponent : String
  severity : TraceAnalysisSeverity
  category : String
  description : String
  ctas : List (List ℤ)
  warps : List ℤ
  pcs : List String
  traceIndices : List ℤ
  sourceLocations : List (Option SourceLoc)
  traceFile : Option String
  deriving DecidableEq

structure TraceAnalysisEvidence where
  analyzer : String
  executionStatus : ExecutionStatus
  detectorSummaries : List TraceDetectorSummary
  findings : List TraceAnalysisFinding
  totalFindings : ℤ
  warnings : List String
  artifact : Option ArtifactRef
  error : Option String
  /-- Each as its JSON text. -/
  captureSummaries : List String
  omittedCaptureSummaries : ℤ
  deriving DecidableEq

/-- `trace` is `traces[0]`. -/
structure TraceExperimentResult where
  experimentId : String
  executionStatus : ExecutionStatus
  mode : ExperimentKind
  provenance : ExecutionProvenance
  log : Option ArtifactRef
  analysis : Option TraceAnalysisEvidence
  durationS : ℚ
  error : Option String
  traces : List ArtifactRef
  supportingArtifacts : List ArtifactRef
  completeness : ResultCompleteness
  analysisDurationS : ℚ
  deriving DecidableEq

structure EssentialDelayPoint where
  kernelName : String
  pcOffset : String
  sass : String
  delayNs : ℤ
  deriving DecidableEq

structure ReduceExperimentResult where
  experimentId : String
  executionStatus : ExecutionStatus
  outcome : ReduceOutcome
  provenance : ExecutionProvenance
  inputConfig : TriggeringDelayConfig
  minimizedConfig : Option ArtifactRef
  report : Option ArtifactRef
  essentialPointsArtifact : Option ArtifactRef
  essentialPoints : List EssentialDelayPoint
  durationS : ℚ
  error : Option String
  note : String
  deriving DecidableEq

def ReduceExperimentResult.artifactRefs (r : ReduceExperimentResult) : List ArtifactRef :=
  [r.report, r.minimizedConfig, r.essentialPointsArtifact, some r.inputConfig.artifact].filterMap id

inductive ExperimentResult where
  | discovery (r : KernelDiscoveryResult)
  | sanitizer (r : SanitizerSweepResult)
  | stress (r : StressTestResult)
  | trace (r : TraceExperimentResult)
  | reduction (r : ReduceExperimentResult)
  deriving DecidableEq

namespace ExperimentResult

def experimentId : ExperimentResult → String
  | discovery r => r.experimentId
  | sanitizer r => r.experimentId
  | stress r => r.experimentId
  | trace r => r.experimentId
  | reduction r => r.experimentId

def kind : ExperimentResult → ExperimentKind
  | discovery _ => .kernelDiscovery
  | sanitizer _ => .computeSanitizer
  | stress _ => .randomDelayStress
  | trace r => r.mode
  | reduction _ => .reduceDelayConfig

def executionStatus : ExperimentResult → ExecutionStatus
  | discovery r => r.executionStatus
  | sanitizer r => r.executionStatus
  | stress r => r.executionStatus
  | trace r => r.executionStatus
  | reduction r => r.executionStatus

def provenance : ExperimentResult → ExecutionProvenance
  | discovery r => r.provenance
  | sanitizer r => r.provenance
  | stress r => r.provenance
  | trace r => r.provenance
  | reduction r => r.provenance

end ExperimentResult

/-! ### Evidence -/

structure EvidenceBundle where
  discovery : List KernelDiscoveryResult
  sanitizer : List SanitizerSweepResult
  stress : List StressTestResult
  traces : List TraceExperimentResult
  reductions : List ReduceExperimentResult

namespace EvidenceBundle

/-- `EvidenceBundle()`. -/
def empty : EvidenceBundle := ⟨[], [], [], [], []⟩

def add (e : EvidenceBundle) : ExperimentResult → EvidenceBundle
  | .discovery r => { e with discovery := e.discovery ++ [r] }
  | .sanitizer r => { e with sanitizer := e.sanitizer ++ [r] }
  | .stress r => { e with stress := e.stress ++ [r] }
  | .trace r => { e with traces := e.traces ++ [r] }
  | .reduction r => { e with reductions := e.reductions ++ [r] }

def triggeringConfig (e : EvidenceBundle) : Option TriggeringDelayConfig :=
  e.stress.findSome? StressTestResult.triggeringConfig

/-- `_evidence_results`. -/
def results (e : EvidenceBundle) : List ExperimentResult :=
  e.discovery.map .discovery ++ e.sanitizer.map .sanitizer ++ e.stress.map .stress ++
    e.traces.map .trace ++ e.reductions.map .reduction

/-- `evidence_artifact_refs`. -/
def artifactRefs (e : EvidenceBundle) : List ArtifactRef :=
  (e.discovery.flatMap fun r => r.manifestArtifact.toList ++
      (r.discovery.map KernelDiscoveryManifest.eventArtifacts).getD []) ++
    e.sanitizer.filterMap SanitizerSweepResult.log ++
    (e.stress.flatMap fun r =>
      (r.triggeringConfig.map TriggeringDelayConfig.artifact).toList ++ r.log.toList) ++
    (e.traces.flatMap fun r =>
      (r.analysis.bind TraceAnalysisEvidence.artifact).toList ++ r.traces ++
        r.supportingArtifacts ++ r.log.toList) ++
    e.reductions.flatMap ReduceExperimentResult.artifactRefs

end EvidenceBundle

/-! ### Decisions and reports -/

structure CrossValidation where
  agrees : Bool
  notes : String

structure ExplainReport where
  rootCause : String
  raceClass : RaceClass
  confidence : Confidence
  isReproduced : Bool
  crossValidation : CrossValidation
  evidenceSufficiency : EvidenceSufficiency
  evidenceRefs : List String
  recommendedAction : String
  rawAiOutput : String

structure ExperimentRequest where
  kind : ExperimentKind
  rationale : String
  traceSelector : Option TraceSelector
  instrumentModes : List String

structure AnalysisDecision where
  kind : DecisionKind
  rationale : String
  report : Option ExplainReport
  requests : List ExperimentRequest

structure TriageDecision where
  outcome : TriageOutcome
  reason : String

structure SessionBudget where
  maxRounds : ℕ
  maxExperiments : ℕ

/-- `SessionBudget()`. -/
def SessionBudget.default : SessionBudget := ⟨2, 8⟩

structure AnalysisTurn where
  turnIndex : ℕ
  decision : AnalysisDecision
  guardNotes : List String

structure ExperimentRecord where
  experimentId : String
  kind : ExperimentKind
  phase : ExperimentPhase
  roundIndex : ℕ
  executionStatus : ExecutionStatus
  outcome : String
  completeness : String
  deriving DecidableEq

structure AnalysisSession where
  sessionId : String
  unit : WorkUnit
  status : SessionStatus
  evidence : EvidenceBundle
  budget : SessionBudget
  pendingExperiments : List ExperimentSpec := []
  completedExperimentIds : List String := []
  experimentFingerprints : List String := []
  roundIndex : ℕ := 0
  submittedExperiments : ℕ := 0
  turns : List AnalysisTurn := []
  report : Option ExplainReport := none
  triage : Option TriageDecision := none
  experimentHistory : List ExperimentRecord := []
  discoveryPlan : Option KernelDiscoveryOptions := none
  childSanitizerTools : List String := []
  childEnableStress : Bool := true
  childStressOptions : Option StressOptions := none
  childSessionIds : List String := []
  terminationReason : String := ""
  reportPublication : ReportPublicationStatus := .notReady
  reportPublicationError : String := ""
  publishedReport : Option ArtifactRef := none

def AnalysisSession.pendingExperimentIds (s : AnalysisSession) : List String :=
  s.pendingExperiments.map ExperimentSpec.experimentId

end CuTracer.Service
