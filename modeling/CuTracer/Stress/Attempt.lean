import CuTracer.Stress.Config

/-! One attempt of the search. It deletes the delay config of its own name, runs
the target, which may dump a config there, and then keeps that config, removes
it or sets it aside, by one of six verdicts. Whatever happens, an attempt
changes no config but its own and the one it sets aside. -/

namespace CuTracer.Stress

open Json (field)

/-- How a run of the target ended. The runner's launch failures are the
exceptions an attempt counts; any other exception ends the search. -/
inductive TargetRun where
  | completed (returncode : ℤ) (stdout stderr : String)
  | timedOut (message : String)
  | launchFailed (kind message : String)
  | raised (kind message : String)

/-- What one attempt meets: how its target ended, the config at its dump path
then, the watchdog's lines, its kernel events, and the random part of a rejected
config's name, or `none` if it cannot be set aside. -/
structure AttemptRun where
  target : TargetRun
  dump : Option Dump
  watchdog : List String
  events : EventDir
  rejectedSuffix : Option String

inductive Symptom where
  | failure | hang
  deriving DecidableEq

structure TriggeringConfig where
  configPath : Path
  delayNs : ℕ
  warpgroupId : Option ℕ
  enableProb : ℚ
  attemptIndex : ℕ
  enabledPointCount : Option ℕ
  symptom : Symptom
  target : Option TargetRecord
  replayArgs : List String
  deriving DecidableEq

/-! ### Options that replay an attempt -/

/-- `_delay_patterns`: mbarrier waits are the default of an isolate search. -/
def delayPatterns (config : StressConfig) : Option String :=
  match config.delayPatterns with
  | some patterns => if patterns ≠ "" then some patterns else defaultPatterns
  | none => defaultPatterns
where
  defaultPatterns : Option String :=
    match config.strategy with
    | .isolate => some "SYNCS.PHASECHK"
    | .random => none

variable (config : StressConfig)

def targetingArgs (trial : Trial) : List String :=
  (match config.kernelFilters with
    | some filters => if filters ≠ "" then ["-k", filters] else []
    | none => []) ++
  (match trial.target, trial.warpgroup with
    | some target, _ =>
      (match target.clusterRank with
        | none => ["--delay-mode", "fixed"]
        | some rank => ["--delay-mode", "cluster_fixed", "--delay-cluster-cta-id", toString rank]) ++
      ["--delay-warp-mask", target.warpMask]
    | none, some warpgroup => ["--delay-warpgroup-id", toString warpgroup]
    | none, none => []) ++
  (match delayPatterns config with
    | some patterns => ["--delay-patterns", patterns]
    | none => []) ++
  if 0 < config.kernelTimeoutS then ["--kernel-timeout-s", toString config.kernelTimeoutS] else []

def replayArgs (trial : Trial) : List String :=
  ["-i", "random_delay", "-a", "random_delay", "--delay-ns", toString trial.delayNs] ++
  targetingArgs config trial ++
  if 0 < config.kernelTimeoutS then ["--no-data-timeout-s", "0"] else []

def attemptLog (trial : Trial) (returncode : Option ℤ) (stdout stderr error : String)
    (watchdog : List String) : String :=
  let placement :=
    match trial.target, trial.warpgroup with
    | some target, _ => "target=" ++ target.label
    | none, none => "warpgroup=all"
    | none, some warpgroup => "warpgroup=" ++ toString warpgroup
  "\n".intercalate
    (["=== delay_ns=" ++ toString trial.delayNs ++ " " ++ placement ++ " attempt=" ++
        toString trial.attempt ++ " ==="] ++
      (match returncode with
        | some code => ["returncode=" ++ toString code]
        | none => []) ++
      (if stdout ≠ "" then ["--- stdout ---", stdout] else []) ++
      (if stderr ≠ "" then ["--- stderr ---", stderr] else []) ++
      (if watchdog ≠ [] then "--- CUTracer watchdog ---" :: watchdog else []) ++
      if error ≠ "" then ["--- error ---", error] else [])

/-! ### Reading the dumped config -/

/-- The enabled points of one kernel; `none` where the points are no object. -/
def kernelEnabledCount : Json → Option ℕ
  | .obj kernel =>
    match (field kernel "instrumentation_points").getD (.obj []) with
    | .obj points => some (points.countP fun p =>
        match p.2 with
        | .obj point => Json.isTrue (field point "on")
        | _ => false)
    | _ => none
  | _ => some 0

/-- `_enabled_point_count`: how many points the dumped config turned on; `none`
if it cannot be inspected. -/
def enabledPointCount : Dump → Option ℕ
  | .ok (.obj payload) =>
    match (field payload "kernels").getD (.obj []) with
    | .obj kernels => (kernels.mapM fun k => kernelEnabledCount k.2).map fun counts => counts.foldr (· + ·) 0
    | _ => none
  | _ => none

/-- What a validated config says: the kernel it names and its enabled PCs. -/
structure ValidConfig where
  kernelName : String
  kernelChecksum : String
  enabledPoints : ℕ

def enabledPc (delayNs : ℕ) : Json → Option ℤ
  | .obj point =>
    if Json.isTrue (field point "on") then
      match field point "delay", field point "pc", Json.nonEmptyStr (field point "sass") with
      | some (.int delay), some (.int pc), some _ =>
        if delay = delayNs ∧ 0 ≤ pc then some pc else none
      | _, _, _ => none
    else none
  | _ => none

def enabledPcs (delayNs : ℕ) (kernel : List (String × Json)) : List ℤ :=
  match field kernel "instrumentation_points" with
  | some (.obj points) => (points.filterMap fun p => enabledPc delayNs p.2).dedup
  | _ => []

def matchedKernel (expectedName expectedChecksum : Option String) :
    Json → Option (String × String × List (String × Json))
  | .obj kernel =>
    match Json.nonEmptyStr (field kernel "kernel_name"),
        Json.nonEmptyStr (field kernel "kernel_checksum") with
    | some name, some checksum =>
      let expected :=
        match expectedChecksum, expectedName with
        | some expected, _ => decide (checksum = expected)
        | none, some expected => decide (name = expected)
        | none, none => true
      if expected then some (name, checksum, kernel) else none
    | _, _ => none
  | _ => none

variable (repr : Json → String)

/-- `_validate_delay_config`; `repr` prints a decoded value. -/
def validateDelayConfig (config : StressConfig) (delayNs : ℕ) :
    Option Dump → Except String ValidConfig
  | none => .error "CUTracer wrote no delay config"
  | some (.error exc) => .error ("delay config is unreadable: " ++ exc)
  | some (.ok (.obj payload)) =>
    if ¬ Json.isStr (field payload "version") "1.0" then
      .error "delay config has an unsupported or missing version"
    else
      let configured := (field payload "delay_ns").getD .null
      if ¬ isDelay configured then
        .error ("delay config does not match the attempted delay (" ++ repr configured ++ " != " ++
          toString delayNs ++ ")")
      else
        match field payload "kernels" with
        | some (.obj (k :: ks)) =>
          let matched := (k :: ks).filterMap fun k =>
            matchedKernel config.expectedKernelName config.expectedKernelChecksum k.2
          match matched.find? fun m => enabledPcs delayNs m.2.2 ≠ [] with
          | some m => .ok ⟨m.1, m.2.1, (enabledPcs delayNs m.2.2).length⟩
          | none =>
            if matched = [] ∧
                (config.expectedKernelName.isSome ∨ config.expectedKernelChecksum.isSome) then
              .error "delay config does not contain the expected kernel identity"
            else .error "delay config contains no enabled point for the expected delay"
        | _ => .error "delay config contains no instrumented kernels"
  | some (.ok _) => .error "delay config has an unsupported or missing version"
where
  isDelay : Json → Bool
    | .int delay => decide (delay = delayNs)
    | _ => false

/-! ### The verdict on an attempt -/

/-- How an attempt is counted, and why. -/
inductive Verdict where
  | launchFailed (error : String)
  | timedOut
  | rejected (error : String)
  | unattributed
  | reproduced (enabledPoints : ℕ)
  | clean
  deriving DecidableEq

/-- Why a targeted attempt reached no live warp, if so. -/
def targetingError (run : AttemptRun) (trial : Trial) (checksum : String) : Option String :=
  match trial.target, trial.warpgroup with
  | some target, _ =>
    validateTargetLaunch run.events checksum target.warp target.clusterRank target.label
  | none, some warpgroup => validateWarpgroupLaunch run.events warpgroup checksum
  | none, none => none

/-- Whether the watchdog ended the run and a hang is the bug. -/
def hung (run : AttemptRun) : Bool :=
  decide (run.watchdog ≠ []) && config.hangIsBug

def returnedVerdict (config : StressConfig) (trial : Trial) (run : AttemptRun)
    (returncode : Option ℤ) : Verdict :=
  let interesting := hung config run || decide (returncode = some 0)
  let clean := config.notInterestingExitCodes = [] ∨
    ∃ code ∈ returncode, code ∈ config.notInterestingExitCodes
  if interesting = false ∧ ¬ clean then
    .rejected ("unexpected oracle returncode " ++
      match returncode with
      | some code => toString code
      | none => "None")
  else if interesting = true ∧ run.dump.bind enabledPointCount = some 0 then .unattributed
  else
    match validateDelayConfig repr config trial.delayNs run.dump with
    | .error e => .rejected e
    | .ok valid =>
      match targetingError run trial valid.kernelChecksum with
      | some e => .rejected e
      | none => if interesting then .reproduced valid.enabledPoints else .clean

/-- The verdict on an attempt, unless its runner raised. -/
def attemptVerdict (config : StressConfig) (trial : Trial) (run : AttemptRun) :
    Except StressError Verdict :=
  match run.target with
  | .raised kind message => .error (.runner kind message)
  | .launchFailed kind message => .ok (.launchFailed ("launch failed: " ++ kind ++ ": " ++ message))
  | .timedOut _ =>
    if hung config run then .ok (returnedVerdict repr config trial run none) else .ok .timedOut
  | .completed returncode _ _ => .ok (returnedVerdict repr config trial run (some returncode))

/-! ### What an attempt returns and leaves -/

structure AttemptResult where
  completedTrials : ℕ
  reproductions : ℕ
  infraErrors : ℕ
  timedOut : ℕ
  unattributed : ℕ
  hangs : ℕ
  triggering : Option TriggeringConfig
  rejectedConfigPath : Option Path
  log : String

abbrev Configs := Path → Option Dump

/-- The name a rejected config is kept under, if it is kept. -/
def rejectedConfigPath (trial : Trial) (run : AttemptRun) : Option Path :=
  run.dump.bind fun _ => run.rejectedSuffix.map fun suffix =>
    ⟨config.outputDir, "rejected-" ++ attemptConfigStem trial ++ "-" ++ suffix ++ ".json"⟩

/-- `_preserve_rejected_config`: rename the dump, or leave it if that fails. -/
def preserveRejectedConfig (trial : Trial) (run : AttemptRun) (configs : Configs) : Configs :=
  match rejectedConfigPath config trial run with
  | none => configs
  | some path =>
    Function.update (Function.update configs (attemptConfigPath config trial) none) path run.dump

/-- The delay configs after an attempt: its own config is deleted first, then
dumped by the target, then treated as the verdict says. -/
def attemptConfigs (trial : Trial) (run : AttemptRun) (verdict : Verdict) (configs : Configs) :
    Configs :=
  let path := attemptConfigPath config trial
  let dumped := Function.update configs path run.dump
  match verdict with
  | .reproduced _ => dumped
  | .rejected _ => preserveRejectedConfig config trial run dumped
  | _ => Function.update dumped path none

def triggeringConfig (trial : Trial) (run : AttemptRun) (enabledPoints : ℕ) : TriggeringConfig where
  configPath := attemptConfigPath config trial
  delayNs := trial.delayNs
  warpgroupId := trial.warpgroup
  enableProb := config.enableProb
  attemptIndex := trial.attempt
  enabledPointCount := some enabledPoints
  symptom := if hung config run then .hang else .failure
  target := trial.target.map DelayTarget.toRecord
  replayArgs := replayArgs config trial

/-- The log of a run, before anything the verdict adds. -/
def runLog (trial : Trial) (run : AttemptRun) : String :=
  match run.target with
  | .completed returncode stdout stderr =>
    attemptLog trial (some returncode) stdout stderr "" run.watchdog
  | .timedOut message => attemptLog trial none "" "" ("timed out: " ++ message) run.watchdog
  | _ => attemptLog trial none "" "" "" run.watchdog

def attemptResult (trial : Trial) (run : AttemptRun) (verdict : Verdict) : AttemptResult :=
  let hangs := if run.watchdog ≠ [] then 1 else 0
  let log := runLog trial run
  match verdict with
  | .launchFailed error =>
    ⟨0, 0, 1, 0, 0, 0, none, none, attemptLog trial none "" "" error []⟩
  | .timedOut => ⟨0, 0, 0, 1, 0, hangs, none, none, log⟩
  | .rejected error =>
    ⟨0, 0, 1, 0, 0, hangs, none, rejectedConfigPath config trial run,
      log ++ "\n--- error ---\n" ++ error⟩
  | .unattributed =>
    ⟨1, 0, 0, 0, 1, hangs, none, none,
      log ++ "\n--- error ---\noracle reported the bug but the delay config enabled 0 " ++
        "verifiable injection points: the target reproduces without attributable injected delay"⟩
  | .reproduced enabledPoints =>
    ⟨1, 1, 0, 0, 0, hangs, some (triggeringConfig config trial run enabledPoints), none, log⟩
  | .clean => ⟨1, 0, 0, 0, 0, hangs, none, none, log⟩

/-- `_run_attempt`: the result and the delay configs on disk after it. An
exception of the runner leaves what the target dumped. -/
def runAttempt (config : StressConfig) (trial : Trial) (run : AttemptRun) (configs : Configs) :
    Configs × Except StressError AttemptResult :=
  match attemptVerdict repr config trial run with
  | .error e => (Function.update configs (attemptConfigPath config trial) run.dump, .error e)
  | .ok verdict =>
    (attemptConfigs config trial run verdict configs, .ok (attemptResult config trial run verdict))

/-! ### What every attempt keeps -/

/-- Every attempt advances the position by one. -/
theorem attemptResult_counts (config : StressConfig) (trial : Trial) (run : AttemptRun)
    (verdict : Verdict) :
    (attemptResult config trial run verdict).completedTrials +
        (attemptResult config trial run verdict).infraErrors +
        (attemptResult config trial run verdict).timedOut = 1 ∧
      (attemptResult config trial run verdict).reproductions +
        (attemptResult config trial run verdict).unattributed ≤
        (attemptResult config trial run verdict).completedTrials := by
  cases verdict <;> simp [attemptResult]

theorem attemptResult_triggering_isSome (config : StressConfig) (trial : Trial) (run : AttemptRun)
    (verdict : Verdict) :
    (attemptResult config trial run verdict).triggering.isSome ↔
      0 < (attemptResult config trial run verdict).reproductions := by
  cases verdict <;> simp [attemptResult]

theorem dump_of_reproduced {repr : Json → String} {config : StressConfig} {trial : Trial}
    {run : AttemptRun} {n : ℕ} (h : attemptVerdict repr config trial run = .ok (.reproduced n)) :
    run.dump.isSome := by
  have key : ∀ code, returnedVerdict repr config trial run code = .reproduced n →
      run.dump.isSome := by
    intro code hv
    cases hd : run.dump with
    | some dump => rfl
    | none =>
      simp only [returnedVerdict, hd, validateDelayConfig] at hv
      split_ifs at hv
  unfold attemptVerdict at h
  split at h
  · cases h
  · cases h
  · split_ifs at h
    · exact key none (Except.ok.inj h)
    · cases h
  · exact key _ (Except.ok.inj h)

/-- What an attempt leaves under its own config name. -/
def attemptLeaves (trial : Trial) (run : AttemptRun) :
    Verdict → Option Dump
  | .reproduced _ => run.dump
  | .rejected _ => if (rejectedConfigPath config trial run).isSome then none else run.dump
  | _ => none

/-- Attempt configs are named `delay-...`, configs set aside `rejected-...`. -/
def Path.IsAttemptConfig (path : Path) : Prop := path.name.toList.head? = some 'd'

def Path.IsRejectedConfig (path : Path) : Prop := path.name.toList.head? = some 'r'

theorem Path.IsAttemptConfig.ne {path path' : Path} (h : path.IsAttemptConfig)
    (h' : path'.IsRejectedConfig) : path ≠ path' := by
  rintro rfl
  simp only [IsAttemptConfig, IsRejectedConfig] at h h'
  simp [h] at h'

theorem attemptConfigPath_isAttemptConfig (config : StressConfig) (trial : Trial) :
    (attemptConfigPath config trial).IsAttemptConfig := by
  simp [Path.IsAttemptConfig, attemptConfigPath, attemptConfigName, attemptConfigStem_head]

theorem rejectedConfigPath_isRejectedConfig {config : StressConfig} {trial : Trial}
    {run : AttemptRun} {path : Path} (h : rejectedConfigPath config trial run = some path) :
    path.IsRejectedConfig := by
  unfold rejectedConfigPath at h
  obtain ⟨dump, -, h⟩ := Option.bind_eq_some_iff.mp h
  obtain ⟨suffix, -, rfl⟩ := Option.map_eq_some_iff.mp h
  simp [Path.IsRejectedConfig]

/-- An attempt replaces the config of its own name and no other attempt's. -/
theorem attemptConfigs_apply (config : StressConfig) (trial : Trial) (run : AttemptRun)
    (verdict : Verdict) (configs : Configs) {path : Path} (hp : path.IsAttemptConfig) :
    attemptConfigs config trial run verdict configs path =
      if path = attemptConfigPath config trial then attemptLeaves config trial run verdict
      else configs path := by
  cases verdict with
  | rejected error =>
    simp only [attemptConfigs, preserveRejectedConfig, attemptLeaves]
    cases h : rejectedConfigPath config trial run with
    | none => simp [Function.update_apply]
    | some rejected =>
      have hne := hp.ne (rejectedConfigPath_isRejectedConfig h)
      simp only [Function.update_apply, if_neg hne, Option.isSome_some, if_true]
      split_ifs <;> rfl
  | _ => simp only [attemptConfigs, attemptLeaves, Function.update_apply] <;> split_ifs <;> rfl

end CuTracer.Stress
