import CuTracer.Stress.Artifacts

/-! The control arm: runs with injection instrumented but every point disabled.
An isolate search also learns the launch geometry from them. -/

namespace CuTracer.Stress

structure BaselineRun where
  target : TargetRun
  dump : Option Dump
  watchdog : List String
  events : EventDir

structure BaselineCounts where
  requested : ℤ
  completed : ℤ
  reproductions : ℤ
  timedOut : ℤ
  infraErrors : ℤ
  hangs : ℤ

structure BaselineResult where
  counts : BaselineCounts
  logs : List String
  geometry : Option LaunchGeometry

/-- How a control run is counted. -/
inductive BaselineVerdict where
  | reproduced | timedOut | clean | infraError
  deriving DecidableEq

/-- The exit code and output of a control run; only a timeout is caught. -/
def baselineOutput (run : BaselineRun) : Except StressError (Option ℤ × String × String × String) :=
  match run.target with
  | .completed returncode stdout stderr =>
    .ok (some returncode, stdout, stderr, "baseline (injection disabled)")
  | .timedOut message => .ok (none, "", "", "baseline timed out: " ++ message)
  | .launchFailed kind message => .error (.runner kind message)
  | .raised kind message => .error (.runner kind message)

variable (config : StressConfig)

def baselineVerdict (run : BaselineRun) (returncode : Option ℤ) : BaselineVerdict :=
  if run.watchdog ≠ [] ∧ config.hangIsBug then .reproduced
  else
    match returncode with
    | none => .timedOut
    | some code =>
      if code = 0 then .reproduced
      else if config.notInterestingExitCodes = [] ∨ code ∈ config.notInterestingExitCodes then .clean
      else .infraError

def BaselineCounts.add (c : BaselineCounts) (verdict : BaselineVerdict) (hang : Bool) :
    BaselineCounts :=
  let c := { c with hangs := c.hangs + if hang then 1 else 0 }
  match verdict with
  | .reproduced => { c with completed := c.completed + 1, reproductions := c.reproductions + 1 }
  | .timedOut => { c with timedOut := c.timedOut + 1 }
  | .clean => { c with completed := c.completed + 1 }
  | .infraError => { c with infraErrors := c.infraErrors + 1 }

/-- The geometry a control run of the search learns. -/
def runGeometry (run : BaselineRun) : Except StressError (Option LaunchGeometry) :=
  match config.strategy with
  | .isolate => instrumentedGeometry run.events run.dump
  | .random => .ok none

/-- The geometry of one more run merged into the geometry so far. -/
def mergeGeometry (geometry launches : Option LaunchGeometry) : Option LaunchGeometry :=
  match launches with
  | some g => some (g.merge geometry)
  | none => geometry

def baselineStep (acc : BaselineResult) (attempt : ℕ) (run : BaselineRun) :
    Except StressError BaselineResult :=
  match baselineOutput run with
  | .error e => .error e
  | .ok (returncode, stdout, stderr, error) =>
    match runGeometry config run with
    | .error e => .error e
    | .ok launches =>
      let trial : Trial := ⟨config.delayLadderNs.head config.ladder_ne_nil, attempt, none, none⟩
      .ok
        { counts := acc.counts.add (baselineVerdict config run returncode) (run.watchdog ≠ [])
          logs := acc.logs ++ [attemptLog trial none stdout stderr error run.watchdog]
          geometry := mergeGeometry acc.geometry launches }

def baselineFrom (config : StressConfig) (runs : ℕ → BaselineRun) :
    ℕ → ℕ → BaselineResult → Except StressError BaselineResult
  | 0, _, acc => .ok acc
  | n + 1, attempt, acc =>
    match baselineStep config acc attempt (runs attempt) with
    | .error e => .error e
    | .ok acc' => baselineFrom config runs n (attempt + 1) acc'

def runBaseline (runs : ℕ → BaselineRun) : Except StressError BaselineResult :=
  baselineFrom config runs config.baselineRuns 0 ⟨⟨config.baselineRuns, 0, 0, 0, 0, 0⟩, [], none⟩

/-- `_attribution`: what a reproduction can be credited to. -/
def attribution (baseline : BaselineCounts) (triggering : Option TriggeringConfig) : Attribution :=
  if baseline.requested = 0 then .noBaseline
  else if 0 < baseline.reproductions then .natural
  else if baseline.completed < baseline.requested then .baselineIncomplete
  else if triggering = none then .notReproduced
  else .attributed

end CuTracer.Stress
