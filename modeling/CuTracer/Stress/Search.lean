import CuTracer.Library.Loop
import CuTracer.Stress.Baseline

/-! The search loop. A run prepares its plan (the control arm or a resumed
result, the schedule, the checks on a resumed result, the log) and then runs the
remaining trials one by one. Everything outside the search, that is what the
runs of the target do and which writes fail, is a `World` indexed by the
position in the schedule, so that a search that is stopped and resumed meets the
same remaining outcomes. -/

namespace CuTracer.Stress

/-- What a search meets at each position; `repr` prints a decoded value. -/
structure World where
  repr : Json → String
  baseline : ℕ → BaselineRun
  baselineLogFault : Option LogFault
  attempt : ℕ → AttemptRun
  logFault : ℕ → Option LogFault

structure Disk where
  configs : Configs
  logs : Logs

structure SearchState where
  completed : ℤ
  reproductions : ℤ
  infraErrors : ℤ
  timedOut : ℤ
  hangs : ℤ
  unattributed : ℤ
  rejected : List Path
  triggering : Option TriggeringConfig
  stop : Bool
  logPath : Option Path
  logSize : ℤ
  disk : Disk

def SearchState.attempted (s : SearchState) : ℤ := s.completed + s.infraErrors + s.timedOut

variable (config : StressConfig)

/-- `progress_result`, which is also the final result. -/
def progressResult (baseline : BaselineCounts) (targets : List DelayTarget) (s : SearchState)
    (logPath : Option Path) : StressResult where
  reproduced := s.triggering.isSome
  completedTrials := s.completed
  reproductions := s.reproductions
  infraErrors := s.infraErrors
  reproductionRate := if s.completed = 0 then 0 else s.reproductions / s.completed
  triggering := s.triggering
  logPath := logPath
  timedOut := s.timedOut
  hangs := s.hangs
  unattributedReproductions := s.unattributed
  baselineRequested := baseline.requested
  baselineCompleted := baseline.completed
  baselineReproductions := baseline.reproductions
  baselineTimedOut := baseline.timedOut
  baselineInfraErrors := baseline.infraErrors
  baselineHangs := baseline.hangs
  attribution := attribution baseline s.triggering
  logSizeBytes := logPath.map fun _ => s.logSize
  rejectedConfigPaths := s.rejected
  strategy := config.strategy
  targets := targets.map DelayTarget.toRecord
  delayLadderNs := some config.delayLadderNs
  attemptsPerDelay := some config.attemptsPerDelay

/-! ### Preparing a run -/

/-- The control arm of a resumed result, which does not run again. -/
def resumedBaseline (r : StressResult) : BaselineResult :=
  ⟨⟨r.baselineRequested, r.baselineCompleted, r.baselineReproductions, r.baselineTimedOut,
    r.baselineInfraErrors, r.baselineHangs⟩, [], none⟩

def baselineResult (world : World) :
    Option StressResult → Except StressError BaselineResult
  | none => runBaseline config world.baseline
  | some r => .ok (resumedBaseline r)

/-- The targets of the search; empty for a random one. -/
def planTargets (resumed : Bool) (geometry : Option LaunchGeometry) :
    Except StressError (List DelayTarget) :=
  match config.strategy with
  | .random => .ok []
  | .isolate =>
    if resumed ∧ ¬ explicitTargets config then
      .error (.valueError
        "resuming an isolate search needs explicit isolate_ranks and isolate_warps")
    else isolateTargets config geometry

/-- Why a result was not counted against this schedule, if so. -/
def shapeError (targets : List DelayTarget) (r : StressResult) : Option StressError :=
  if (∃ ladder ∈ r.delayLadderNs, ladder ≠ config.delayLadderNs) ∨
      (∃ attempts ∈ r.attemptsPerDelay, attempts ≠ config.attemptsPerDelay) then
    some (.valueError ("resuming a stress search needs the original delay_ladder_ns and " ++
      "attempts_per_delay; the remaining trials are located by counting the ones already run"))
  else if r.targets ≠ [] ∧ r.targets ≠ targets.map DelayTarget.toRecord then
    some (.valueError ("resuming an isolate search needs the original targets; the remaining " ++
      "trials are located by counting the ones already run"))
  else none

/-- The state a run starts from, before its log is prepared. -/
def startState (resume : Option StressResult) (rejected : List Path) (disk : Disk) : SearchState :=
  match resume with
  | none => ⟨0, 0, 0, 0, 0, 0, rejected, none, false, none, 0, disk⟩
  | some r =>
    ⟨r.completedTrials, r.reproductions, r.infraErrors, r.timedOut, r.hangs,
      r.unattributedReproductions, rejected, r.triggering, false, none, 0, disk⟩

/-- Why the counts and the triggering config cannot be resumed, if so. -/
def countError (plannedTrials : ℕ) (s : SearchState) : Option StressError :=
  if s.completed < 0 ∨ s.reproductions < 0 ∨ s.unattributed < 0 ∨ s.infraErrors < 0 ∨
      s.timedOut < 0 then
    some (.valueError "resumed stress progress contains negative counts")
  else if s.completed < s.reproductions + s.unattributed ∨ plannedTrials < s.attempted then
    some (.valueError "resumed stress progress is outside the campaign plan")
  else if s.triggering.isSome ∧ s.reproductions = 0 then
    some (.valueError "resumed triggering config has no reproduced trial")
  else if ∃ t ∈ s.triggering, s.disk.configs t.configPath = none then
    some (.valueError "resumed triggering config is unavailable")
  else if 0 < s.reproductions ∧ s.triggering = none then
    some (.valueError "resumed reproduction is missing its triggering config")
  else none

/-- Write the log of the control arm, if it ran. -/
def logBaseline (world : World) (logs : List String) (s : SearchState) :
    SearchState × Option StressError :=
  if logs = [] then (s, none)
  else
    match writeStressLog config.outputDir world.baselineLogFault ("\n".intercalate logs)
        s.logPath.isSome s.disk.logs with
    | (logs, .error e) => ({ s with disk.logs := logs }, some e)
    | (logs, .ok (path, size)) =>
      ({ s with logPath := some path, logSize := size, disk.logs := logs }, none)

/-- A planned run: what it is counted against and where it starts. -/
structure Plan where
  baseline : BaselineCounts
  targets : List DelayTarget
  schedule : List Trial
  start : SearchState

/-- `run_stress` up to its loop: the disk if the run is refused, and the plan. -/
def prepareSearch (world : World) (disk : Disk) (resume : Option StressResult) :
    Except (Disk × StressError) Plan :=
  match baselineResult config world resume with
  | .error e => .error (disk, e)
  | .ok baseline =>
    let bounded := boundedRejectedConfigPaths config.outputDir
      ((resume.map (·.rejectedConfigPaths)).getD []) disk.configs
    let disk := { disk with configs := bounded.2 }
    match planTargets config resume.isSome baseline.geometry with
    | .error e => .error (disk, e)
    | .ok targets =>
      let schedule := trialSchedule config targets
      let s := startState resume bounded.1 disk
      match (resume.bind (shapeError config targets)).or (countError schedule.length s) with
      | some e => .error (disk, e)
      | none =>
        match prepareStressLog config.outputDir resume disk.logs with
        | (logs, .error e) => .error ({ disk with logs := logs }, e)
        | (logs, .ok (logPath, logSize)) =>
          match logBaseline config world baseline.logs
              { s with logPath := logPath, logSize := logSize, disk.logs := logs } with
          | (s, some e) => .error (s.disk, e)
          | (s, none) =>
            .ok ⟨baseline.counts, targets, schedule,
              { s with stop := s.triggering.isSome && config.stopOnFirst }⟩

/-! ### The loop -/

abbrev Planned := Trial × ℕ

/-- The state after an attempt returned, before its log is written. -/
def SearchState.record (s : SearchState) (outcome : AttemptResult) (configs : Configs) :
    SearchState :=
  let recorded := recordRejectedConfig config.outputDir s.rejected outcome.rejectedConfigPath configs
  { completed := s.completed + outcome.completedTrials
    reproductions := s.reproductions + outcome.reproductions
    infraErrors := s.infraErrors + outcome.infraErrors
    timedOut := s.timedOut + outcome.timedOut
    hangs := s.hangs + outcome.hangs
    unattributed := s.unattributed + outcome.unattributed
    rejected := recorded.1
    triggering := s.triggering.or outcome.triggering
    stop := s.stop || (outcome.triggering.isSome && config.stopOnFirst)
    logPath := s.logPath
    logSize := s.logSize
    disk := { s.disk with configs := recorded.2 } }

def SearchState.writeLog (fault : Option LogFault) (part : String) (s : SearchState) :
    SearchState × Option StressError :=
  match writeStressLog config.outputDir fault part s.logPath.isSome s.disk.logs with
  | (logs, .error e) => ({ s with disk.logs := logs }, some e)
  | (logs, .ok (path, size)) =>
    ({ s with logPath := some path, logSize := size, disk.logs := logs }, none)

def runTrial (world : World) (planned : Planned) (s : SearchState) :
    SearchState × Option StressError :=
  let attempt := runAttempt world.repr config planned.1 (world.attempt planned.2) s.disk.configs
  match attempt.2 with
  | .error e => ({ s with disk.configs := attempt.1 }, some e)
  | .ok outcome =>
    (s.record config outcome attempt.1).writeLog config (world.logFault planned.2) outcome.log

def trialLoop (world : World) : Loop Planned SearchState StressError where
  stop := SearchState.stop
  step := runTrial config world

/-! ### A run and what it reports -/

/-- A progress report and the disk at that moment. -/
structure Checkpoint where
  result : StressResult
  disk : Disk

structure StressRun where
  disk : Disk
  schedule : List Trial
  launched : List ℕ
  checkpoints : List Checkpoint
  outcome : Except StressError StressResult

/-- The progress report after a trial. A trial whose log could not be written is
reported without a log; one whose runner raised is not reported. -/
def checkpoint (plan : Plan) (ran : Loop.Ran Planned SearchState StressError) : Option Checkpoint :=
  match ran.error with
  | none =>
    some ⟨progressResult config plan.baseline plan.targets ran.state ran.state.logPath,
      ran.state.disk⟩
  | some (.osError _) =>
    some ⟨progressResult config plan.baseline plan.targets ran.state none, ran.state.disk⟩
  | some _ => none

/-- The trials of a plan that are left to run. -/
def Plan.remaining (plan : Plan) : List Planned :=
  plan.schedule.zipIdx.drop plan.start.attempted.toNat

def Plan.loop (world : World) (plan : Plan) : Loop.Result Planned SearchState StressError :=
  (trialLoop config world).run plan.remaining plan.start

def Plan.run (world : World) (plan : Plan) : StressRun :=
  let loop := plan.loop config world
  { disk := loop.final.disk
    schedule := plan.schedule
    launched := loop.ran.map fun ran => ran.item.2
    checkpoints := loop.ran.filterMap (checkpoint config plan)
    outcome :=
      match loop.error with
      | some e => .error e
      | none =>
        .ok (progressResult config plan.baseline plan.targets loop.final loop.final.logPath) }

def runStress (world : World) (disk : Disk) (resume : Option StressResult) : StressRun :=
  match prepareSearch config world disk resume with
  | .error (disk, e) => ⟨disk, [], [], [], .error e⟩
  | .ok plan => plan.run config world

def StressRun.Reports (run : StressRun) (r : StressResult) : Prop :=
  run.outcome = .ok r ∨ ∃ cp ∈ run.checkpoints, cp.result = r

end CuTracer.Stress
