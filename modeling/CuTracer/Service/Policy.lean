import CuTracer.Service.Validate

/-! The initial campaign, and the guard that turns requests of the reasoner into
follow-up experiments. Experiment identifiers and fingerprints are built here. -/

namespace CuTracer.Service

/-- The hexadecimal digests: of an experiment's identity, and of trace options. -/
structure Hashes where
  /-- `hashlib.sha256(raw.encode()).hexdigest()[:16]`. -/
  id : String → String
  /-- `hashlib.sha256(encoded).hexdigest()`. -/
  sha256 : String → String

def defaultLocalSanitizerTools : List String := ["memcheck", "synccheck", "initcheck", "racecheck"]

/-- What `_experiment_id` hashes. -/
def rawExperimentId (sessionId : String) (phase : ExperimentPhase) (roundIndex : ℕ)
    (kind : ExperimentKind) (discriminator : String) : String :=
  sessionId ++ ":" ++ (phase.value ++ ":" ++ (toString roundIndex ++ ":" ++
    (kind.value ++ ":" ++ discriminator)))

variable (h : Hashes)

def experimentId (sessionId : String) (phase : ExperimentPhase) (roundIndex : ℕ)
    (kind : ExperimentKind) (discriminator : String) : String :=
  "exp-" ++ h.id (rawExperimentId sessionId phase roundIndex kind discriminator)

def fingerprint (kind : ExperimentKind) (discriminator : String) : String :=
  kind.value ++ ":" ++ discriminator

def requestDiscriminator (request : ExperimentRequest) (config : Option TriggeringDelayConfig) :
    String :=
  match request.kind, config with
  | .computeSanitizer, _ => "racecheck"
  | .reduceDelayConfig, some config => config.artifact.uri
  | _, _ => ""

/-! ### JSON text of trace options -/

namespace JsonText

def hex4 (n : ℕ) : String := String.ofList ((Nat.toDigits 16 n).leftpad 4 '0')

/-- One character of a string that `json.dumps` writes in ASCII. -/
def escape (c : Char) : String :=
  let n := c.toNat
  if c = '"' then "\\\""
  else if c = '\\' then "\\\\"
  else if c = '\n' then "\\n"
  else if c = '\r' then "\\r"
  else if c = '\t' then "\\t"
  else if n = 12 then "\\f"
  else if n = 8 then "\\b"
  else if 32 ≤ n ∧ n ≤ 126 then c.toString
  else if n < 0x10000 then "\\u" ++ hex4 n
  else "\\u" ++ hex4 (0xd800 + (n - 0x10000) / 0x400) ++ "\\u" ++ hex4 (0xdc00 + (n - 0x10000) % 0x400)

def string (s : String) : String := "\"" ++ String.join (s.toList.map escape) ++ "\""

def array (items : List String) : String := "[" ++ ",".intercalate items ++ "]"

def object (fields : List (String × String)) : String :=
  "\x7b" ++ ",".intercalate (fields.map fun (key, value) => string key ++ ":" ++ value) ++ "\x7d"

def optional {α : Type} (f : α → String) : Option α → String
  | none => "null"
  | some a => f a

end JsonText

/-- `KernelId.to_dict`. -/
def KernelId.json (kernel : KernelId) : String :=
  JsonText.object ([("cubin_hash", JsonText.string kernel.cubinHash)] ++
    (kernel.mangledName.toList.map fun name => ("mangled_name", JsonText.string name)) ++
    [("name", JsonText.string kernel.name)])

/-- `TraceSelector.to_dict`. -/
def TraceSelector.json (s : TraceSelector) : String :=
  JsonText.object
    [("config_source", JsonText.optional (fun c => JsonText.string c.value) s.configSource),
      ("instruction_categories",
        JsonText.array (s.instructionCategories.map fun c => JsonText.string c.value)),
      ("kernel", JsonText.optional KernelId.json s.kernel),
      ("launch_id", JsonText.optional toString s.launchId),
      ("pc_offsets", JsonText.array (s.pcOffsets.map JsonText.string)),
      ("warp_id", JsonText.optional toString s.warpId),
      ("warpgroup_id", JsonText.optional toString s.warpgroupId)]

/-- `artifact_identity`. -/
def ArtifactRef.identityJson (artifact : ArtifactRef) : String :=
  match artifact.sha256, artifact.sizeBytes with
  | some sha, some size =>
    JsonText.object [("sha256", JsonText.string sha), ("size_bytes", toString size)]
  | _, _ => JsonText.object [("uri", JsonText.string artifact.uri)]

def traceInstrumentModes (primary : ExperimentKind) (modes : List String) :
    Except String (List String) :=
  let allowed := ["reg_trace", "mem_value_trace", "tma_trace"]
  if !modes.all allowed.contains then
    .error "trace instrument_modes must be an allowlisted list"
  else if modes.isEmpty then .ok []
  else if !modes.contains primary.value then
    .error "trace instrument_modes must include the primary mode"
  else
    let normalized := allowed.filter modes.contains
    .ok (if normalized = [primary.value] then [] else normalized)

def TraceOptions.effectiveInstrumentModes (o : TraceOptions) : List String :=
  match traceInstrumentModes o.mode o.instrumentModes with
  | .ok (mode :: modes) => mode :: modes
  | _ => [o.mode.value]

/-- Whether every value of the selector is absent or empty. -/
def TraceSelector.isEmpty (s : TraceSelector) : Bool :=
  s.kernel.isNone && s.launchId.isNone && s.warpId.isNone && s.warpgroupId.isNone &&
    s.pcOffsets.isEmpty && s.instructionCategories.isEmpty && s.configSource.isNone

def traceOptionsDiscriminator (options : TraceOptions) (unit : WorkUnit) : String :=
  let selector : TraceSelector :=
    if sameKernel options.selector.kernel unit.kernel then { options.selector with kernel := none }
    else options.selector
  if selector.isEmpty && options.configArtifact.isNone && options.instrumentModes.isEmpty then ""
  else
    let modes :=
      if options.instrumentModes.isEmpty then []
      else [("instrument_modes",
        JsonText.array (options.effectiveInstrumentModes.map JsonText.string))]
    h.sha256 (JsonText.object
      ([("config_artifact", JsonText.optional ArtifactRef.identityJson options.configArtifact)] ++
        modes ++ [("selector", selector.json)]))

def experimentSpecFingerprint (spec : ExperimentSpec) : String :=
  let discriminator :=
    match spec.kind, spec.trace, spec.reduction with
    | .computeSanitizer, _, _ => spec.sanitizerTool.getD ""
    | .regTrace, some trace, _ => traceOptionsDiscriminator h trace spec.unit
    | .memValueTrace, some trace, _ => traceOptionsDiscriminator h trace spec.unit
    | .reduceDelayConfig, _, some reduction => reduction.triggeringConfig.artifact.uri
    | _, _, _ => ""
  fingerprint spec.kind discriminator

/-! ### The initial campaign -/

structure CampaignPlan where
  experiments : List ExperimentSpec
  skippedResults : List StressTestResult

/-- `InitialCampaignPolicy`, with what its constructor checks. -/
structure InitialCampaignPolicy where
  sanitizerTools : List String
  stressOptions : StressOptions
  enableStress : Bool
  supported : ∀ tool ∈ sanitizerTools, tool ∈ defaultLocalSanitizerTools
  nodup : sanitizerTools.Nodup
  source : sanitizerTools ≠ [] ∨ enableStress = true

/-- `InitialCampaignPolicy()`. -/
def InitialCampaignPolicy.default : InitialCampaignPolicy where
  sanitizerTools := ["racecheck"]
  stressOptions := StressOptions.default
  enableStress := true
  supported := by decide
  nodup := by decide
  source := Or.inr rfl

def initialSanitizer (sessionId : String) (unit : WorkUnit) (tool : String) :
    ExperimentSpec where
  experimentId := experimentId h sessionId .initial 0 .computeSanitizer tool
  sessionId := sessionId
  phase := .initial
  kind := .computeSanitizer
  unit := unit
  roundIndex := 0
  discovery := none
  sanitizerTool := some tool
  stress := none
  trace := none
  reduction := none

def initialStress (sessionId : String) (unit : WorkUnit) (options : StressOptions) :
    ExperimentSpec where
  experimentId := experimentId h sessionId .initial 0 .randomDelayStress ""
  sessionId := sessionId
  phase := .initial
  kind := .randomDelayStress
  unit := unit
  roundIndex := 0
  discovery := none
  sanitizerTool := none
  stress := some options
  trace := none
  reduction := none

/-- The result that stands for a stress experiment without an oracle. -/
def skippedStress (sessionId : String) (unit : WorkUnit) : StressTestResult where
  experimentId := experimentId h sessionId .initial 0 .randomDelayStress ""
  executionStatus := .succeeded
  outcome := .skipped
  completedTrials := 0
  reproductions := 0
  infraErrors := 0
  provenance := ⟨unit.sourceRevision, unit.arch, unit.kernel, "", ""⟩
  triggeringConfig := none
  log := none
  durationS := 0
  error := some "work unit has no pre-approved correctness oracle"
  plannedTrials := 0
  timedOutTrials := 0
  completeness := .skipped
  unattributedReproductions := 0
  rejectedConfigs := []

/-- `InitialCampaignPolicy.plan`. -/
def InitialCampaignPolicy.plan (policy : InitialCampaignPolicy) (h : Hashes) (sessionId : String)
    (unit : WorkUnit) : CampaignPlan :=
  let specs := policy.sanitizerTools.map (initialSanitizer h sessionId unit)
  if policy.enableStress && unit.oracle.isSome then
    ⟨specs ++ [initialStress h sessionId unit policy.stressOptions], []⟩
  else if policy.enableStress then ⟨specs, [skippedStress h sessionId unit]⟩
  else ⟨specs, []⟩

/-! ### Follow-up requests -/

variable (evidence : EvidenceBundle)

def selectedConfigArtifact : TraceConfigSource → Option ArtifactRef
  | .triggering => evidence.triggeringConfig.map TriggeringDelayConfig.artifact
  | .minimized => evidence.reductions.reverse.findSome? fun result =>
      if result.executionStatus = .succeeded then result.minimizedConfig else none

def selectedConfigPointCount : TraceConfigSource → Option ℤ
  | .triggering => evidence.triggeringConfig.bind TriggeringDelayConfig.enabledPointCount
  | .minimized => evidence.reductions.reverse.findSome? fun result =>
      if result.executionStatus = .succeeded ∧ result.minimizedConfig.isSome then
        some ((result.essentialPoints.map EssentialDelayPoint.pcOffset).eraseDups.length : ℤ)
      else none

/-- `TraceOptions(..)`: the checks of its constructor. -/
def TraceOptions.make (mode : ExperimentKind) (traceSizeLimitMb : ℤ) (selector : TraceSelector)
    (configArtifact : Option ArtifactRef) (modes : List String) : Except String TraceOptions := do
  let modes ← traceInstrumentModes mode modes
  if !(1 ≤ traceSizeLimitMb && traceSizeLimitMb ≤ 0xffffffff) then
    .error "trace_size_limit_mb must be in [1, UINT32_MAX]"
  else if selector.configSource.isNone ≠ configArtifact.isNone then
    .error "trace config_source and resolved config_artifact must be set together"
  else .ok ⟨mode, traceSizeLimitMb, selector, configArtifact, modes⟩

/-- The config artifact that a selector names, if its enabled points can be traced. -/
def resolveConfigSource (source : TraceConfigSource) : Except String ArtifactRef :=
  match selectedConfigArtifact evidence source with
  | none => .error ("trace selector requires available " ++ source.value ++ " config")
  | some artifact =>
    match selectedConfigPointCount evidence source with
    | none => .error ("trace from " ++ source.value ++
        " config is deferred: enabled PC count is unknown")
    | some count =>
      if count = 0 then .error ("trace from " ++ source.value ++ " config has no enabled PCs")
      else if count > 32 then
        .error ("trace from " ++ source.value ++ " config is deferred: " ++ toString count ++
          " enabled PCs exceed the 32-PC limit")
      else .ok artifact

/-- `TraceSelector()`. -/
def TraceSelector.default : TraceSelector := ⟨none, none, none, none, [], [], none⟩

/-- `_resolve_trace_options`; the text of a `ValueError` becomes a rejection. -/
def resolveTraceOptions (session : AnalysisSession) (request : ExperimentRequest)
    (traceSizeLimitMb : ℤ) : Except String (TraceOptions × Option String) :=
  if !pinned session.unit.kernel then
    .error "targeted trace requires pinned kernel name and cubin identity"
  else
    let selector := request.traceSelector.getD TraceSelector.default
    if selector.kernel.isSome && !sameKernel selector.kernel session.unit.kernel then
      .error "trace selector kernel does not match the pinned WorkUnit"
    else do
      let both := !selector.pcOffsets.isEmpty && selector.configSource.isSome
      let note := if both then
          some ("trace selector supplied both explicit PC offsets and a config source; " ++
            "explicit PC offsets take precedence")
        else none
      let selector := if both then { selector with configSource := none } else selector
      let artifact ← match selector.configSource with
        | none => Except.ok none
        | some source => (resolveConfigSource session.evidence source).map some
      let options ← TraceOptions.make request.kind traceSizeLimitMb selector artifact
        request.instrumentModes
      return (options, note)

/-! ### The guard -/

structure GuardedExperiments where
  experiments : List ExperimentSpec
  fingerprints : List String
  rejections : List String
  notes : List String

structure ExperimentGuardPolicy where
  defaultTraceSizeLimitMb : ℤ
  autoReduceTriggeringConfig : Bool
  requireKernelIdentityForReduce : Bool

/-- `ExperimentGuardPolicy()`. -/
def ExperimentGuardPolicy.default : ExperimentGuardPolicy := ⟨1024, true, true⟩

/-- What `ExperimentSpec` checks when it is constructed. -/
def ExperimentSpec.check (spec : ExperimentSpec) : Check :=
  match spec.kind with
  | .kernelDiscovery => do
    raiseIf spec.discovery.isNone "kernel discovery experiment requires discovery options" []
    raiseIf spec.unit.kernel.isSome "kernel discovery requires an unpinned WorkUnit" []
  | .computeSanitizer =>
    raiseIf (spec.sanitizerTool.all fun tool => tool = "")
      "compute-sanitizer experiment requires sanitizer_tool" []
  | .randomDelayStress =>
    raiseIf spec.stress.isNone "random-delay experiment requires stress options" []
  | .regTrace | .memValueTrace =>
    raiseIf (spec.trace.all fun trace => trace.mode ≠ spec.kind)
      "trace experiment requires matching trace options" []
  | .reduceDelayConfig =>
    match spec.reduction with
    | none => .error (.value "reduce experiment requires reduction options" [])
    | some reduction => do
      let config := reduction.triggeringConfig
      raiseIf spec.unit.oracle.isNone "reduce experiment requires an approved oracle" []
      raiseIf (config.workUnitId ≠ spec.unit.unitId || config.targetArgv ≠ spec.unit.argv ||
          some config.oracle ≠ spec.unit.oracle ||
          config.sourceRevision ≠ spec.unit.sourceRevision || config.arch ≠ spec.unit.arch ||
          !sameKernel config.kernel spec.unit.kernel)
        "reduce experiment does not match replay context" []

/-- `ExperimentSpec(..)`. -/
def ExperimentSpec.make (spec : ExperimentSpec) : Except ServiceError ExperimentSpec := do
  spec.check
  return spec

namespace ExperimentGuardPolicy

variable (policy : ExperimentGuardPolicy)

def reduceIdentityRejection (unit : WorkUnit) (config : TriggeringDelayConfig) : Option String :=
  if !policy.requireKernelIdentityForReduce then none
  else if !pinned unit.kernel || !pinned config.kernel then
    some "reduce requires kernel name and cubin identity"
  else if !sameKernel config.kernel unit.kernel then
    some "reduce triggering config kernel identity differs from work unit"
  else none

/-- The fields that every follow-up spec has. -/
def common (h : Hashes) (session : AnalysisSession) (request : ExperimentRequest) (index : ℕ)
    (discriminator : String) : ExperimentSpec where
  experimentId := experimentId h session.sessionId .followup (session.roundIndex + 1) request.kind
    (toString index ++ ":" ++ discriminator)
  sessionId := session.sessionId
  phase := .followup
  kind := request.kind
  unit := session.unit
  roundIndex := session.roundIndex + 1
  discovery := none
  sanitizerTool := none
  stress := none
  trace := none
  reduction := none

def buildReduceSpec (session : AnalysisSession) (config : Option TriggeringDelayConfig)
    (base : ExperimentSpec) : Except ServiceError (ExperimentSpec ⊕ String) :=
  match config, session.unit.oracle with
  | some config, some _ =>
    match policy.reduceIdentityRejection session.unit config with
    | some rejection => .ok (.inr rejection)
    | none => do
      let spec ← ExperimentSpec.make { base with
        reduction := some ⟨config, "bisect", 3, policy.requireKernelIdentityForReduce⟩ }
      return .inl spec
  | _, _ => .ok (.inr "reduce requires a reproduced config and its approved oracle")

/-- `_build_spec`: a spec, or why there is none. -/
def buildSpec (h : Hashes) (session : AnalysisSession) (request : ExperimentRequest)
    (config : Option TriggeringDelayConfig) (index : ℕ) (discriminator : String)
    (traceOptions : Option TraceOptions) : Except ServiceError (ExperimentSpec ⊕ String) :=
  let base := common h session request index discriminator
  match request.kind with
  | .computeSanitizer =>
    (ExperimentSpec.make { base with sanitizerTool := some "racecheck" }).map .inl
  | .randomDelayStress =>
    if session.unit.oracle.isNone then
      .ok (.inr "random-delay stress requires an approved oracle")
    else (ExperimentSpec.make { base with stress := some StressOptions.default }).map .inl
  | .regTrace | .memValueTrace =>
    match traceOptions with
    | none => .ok (.inr "trace options could not be resolved")
    | some options => (ExperimentSpec.make { base with trace := some options }).map .inl
  | .reduceDelayConfig => policy.buildReduceSpec session config base
  | .kernelDiscovery => .ok (.inr ("unsupported experiment kind: " ++ request.kind.value))

/-- The discriminator of a request, with its trace options and a note. -/
def discriminate (h : Hashes) (session : AnalysisSession) (config : Option TriggeringDelayConfig)
    (request : ExperimentRequest) : Except String (String × Option TraceOptions × Option String) :=
  match request.kind with
  | .regTrace | .memValueTrace => do
    let (options, note) ← resolveTraceOptions session request policy.defaultTraceSizeLimitMb
    return (traceOptionsDiscriminator h options session.unit, some options, note)
  | _ => .ok (requestDiscriminator request config, none, none)

/-- One request of the loop in `expand`. -/
def consider (h : Hashes) (session : AnalysisSession) (config : Option TriggeringDelayConfig)
    (acc : GuardedExperiments) (item : ExperimentRequest × ℕ) :
    Except ServiceError GuardedExperiments :=
  match policy.discriminate h session config item.1 with
  | .error text => .ok { acc with rejections := acc.rejections ++ [text] }
  | .ok (discriminator, traceOptions, note) =>
    let acc := { acc with notes := acc.notes ++ note.toList }
    let print := fingerprint item.1.kind discriminator
    if print ∈ session.experimentFingerprints ∨ print ∈ acc.fingerprints then
      .ok { acc with rejections := acc.rejections ++ ["duplicate experiment: " ++ print] }
    else do
      match ← policy.buildSpec h session item.1 config item.2 discriminator traceOptions with
      | .inr rejection => return { acc with rejections := acc.rejections ++ [rejection] }
      | .inl spec => return { acc with
          experiments := acc.experiments ++ [spec]
          fingerprints := acc.fingerprints ++ [print] }

/-- The requests, with the standard reduction of a reproduced config. -/
def requested (session : AnalysisSession) (requests : List ExperimentRequest) :
    List ExperimentRequest :=
  if policy.autoReduceTriggeringConfig && session.evidence.triggeringConfig.isSome &&
      !requests.any fun request => request.kind = .reduceDelayConfig then
    requests ++ [⟨.reduceDelayConfig, "standard reduction of the reproduced delay config", none, []⟩]
  else requests

def expand (h : Hashes) (session : AnalysisSession) (requests : List ExperimentRequest) :
    Except ServiceError GuardedExperiments :=
  (policy.requested session requests).zipIdx.foldlM
    (policy.consider h session session.evidence.triggeringConfig) ⟨[], [], [], []⟩

end ExperimentGuardPolicy

end CuTracer.Service
