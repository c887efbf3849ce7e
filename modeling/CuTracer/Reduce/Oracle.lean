import CuTracer.Reduce.Config

/-! The oracle of a reduction: how one candidate config is judged, how a
majority vote repeats the judgement, and the check of the initial config that
both reducers make first. Replays and test scripts run outside the model, so a
reduction is given the function from candidate configs to their results. -/

namespace CuTracer.Reduce

inductive ReplayOutcome where
  | interesting | notInteresting | infraError | timedOut | staleInput
  deriving DecidableEq

def ReplayOutcome.value : ReplayOutcome → String
  | .interesting => "interesting"
  | .notInteresting => "not_interesting"
  | .infraError => "infra_error"
  | .timedOut => "timed_out"
  | .staleInput => "stale_input"

structure ReplayResult where
  outcome : ReplayOutcome
  stderr : String := ""
  error : Option String := none

def ReplayResult.interesting (r : ReplayResult) : Bool := r.outcome = .interesting

inductive ReduceError where
  | valueError (message : String)
  | configDoesNotTrigger (message : String)
  | replayExecution (message : String) (outcome : ReplayOutcome)
  deriving DecidableEq

/-- A reduction: the loaded config, the oracle, and whether the minimal config
is saved. `replay` stands for the replay evaluator or the replay of a candidate,
`testScript` for running the script on it. -/
structure ReduceConfig where
  delayConfig : DelayConfig
  testScript : Option (DelayConfig → Bool) := none
  replay : Option (DelayConfig → ReplayResult) := none
  outputPath : Option String := none

structure ReduceResult where
  totalPoints : ℕ
  essentialPoints : List DelayPoint
  iterations : ℕ
  strategy : String
  minimalConfig : Option (String × DelayConfig)

def ReduceResult.success (r : ReduceResult) : Bool := decide (0 < r.essentialPoints.length)

/-- `result.error or result.stderr or result.outcome.value`. -/
def ReplayResult.detail (r : ReplayResult) : String :=
  if r.error.getD "" ≠ "" then r.error.getD ""
  else if r.stderr ≠ "" then r.stderr
  else r.outcome.value

namespace ReduceConfig

variable (config : ReduceConfig)

def candidateIsInteresting (candidate : DelayConfig) : Except ReduceError Bool :=
  match config.replay with
  | some evaluate =>
    let result := evaluate candidate
    if result.outcome = .infraError ∨ result.outcome = .timedOut ∨ result.outcome = .staleInput then
      .error (.replayExecution ("could not evaluate replay candidate: " ++ result.detail) result.outcome)
    else .ok result.interesting
  | none =>
    match config.testScript with
    | some runTest => .ok (runTest candidate)
    | none => .error (.valueError "reduce requires either replay config or test_script")

/-- The rest of a majority vote, with `left` runs to go after `i` runs of which
`raceCount` raced. -/
def vote (test : Except ReduceError Bool) (threshold : ℕ) :
    (left i raceCount : ℕ) → Except ReduceError Bool
  | 0, _, raceCount => .ok (decide (threshold ≤ raceCount))
  | left + 1, i, raceCount =>
    match test with
    | .error e => .error e
    | .ok true =>
      if threshold ≤ raceCount + 1 then .ok true else vote test threshold left (i + 1) (raceCount + 1)
    | .ok false =>
      if threshold ≤ i + 1 - raceCount then .ok false else vote test threshold left (i + 1) raceCount

def runTestWithConfidence (candidate : DelayConfig) (confidenceRuns : ℕ) :
    Except ReduceError Bool :=
  if confidenceRuns ≤ 1 then config.candidateIsInteresting candidate
  else vote (config.candidateIsInteresting candidate) (confidenceRuns / 2 + 1) confidenceRuns 0 0

/-- The check both reducers make before they search. -/
def validateInitialConfig (m : DelayConfigMutator) : Except ReduceError Unit :=
  if m.enabledPoints = [] then .error (.valueError "No enabled delay points in config")
  else
    match config.candidateIsInteresting m.save with
    | .error e => .error e
    | .ok true => .ok ()
    | .ok false => .error (.configDoesNotTrigger
        ("Initial config does not trigger the race! " ++
          "Oracle must return 0 (race) with the original config."))

/-- The oracle is deterministic: it is a function of the enabled points of the
candidate, and never an error. -/
def Decides (oracle : Finset PointKey → Bool) : Prop :=
  ∀ candidate, config.candidateIsInteresting candidate = .ok (oracle candidate.enabledKeys)

theorem vote_true {threshold left i : ℕ} (h : threshold ≤ i + left) :
    vote (.ok true) threshold left i i = .ok true := by
  induction left generalizing i with
  | zero => simp only [vote, decide_eq_true (show threshold ≤ i by omega)]
  | succ left ih =>
    simp only [vote]
    split_ifs
    · rfl
    · exact ih (by omega)

theorem vote_false {threshold left i : ℕ} (h : threshold ≤ i + left) (h0 : i < threshold) :
    vote (.ok false) threshold left i 0 = .ok false := by
  induction left generalizing i with
  | zero => omega
  | succ left ih =>
    simp only [vote]
    split_ifs
    · rfl
    · exact ih (by omega) (by omega)

/-- A deterministic oracle wins every vote. -/
theorem runTestWithConfidence_decided {config : ReduceConfig} {oracle : Finset PointKey → Bool}
    (h : config.Decides oracle) (candidate : DelayConfig) (runs : ℕ) :
    config.runTestWithConfidence candidate runs = .ok (oracle candidate.enabledKeys) := by
  unfold runTestWithConfidence
  split_ifs with hr
  · exact h candidate
  · rw [h candidate]
    cases oracle candidate.enabledKeys with
    | true => exact vote_true (by omega)
    | false => exact vote_false (by omega) (by omega)

theorem validateInitialConfig_decided {config : ReduceConfig} {oracle : Finset PointKey → Bool}
    (h : config.Decides oracle) (m : DelayConfigMutator) (hi : oracle m.save.enabledKeys = true) :
    config.validateInitialConfig m =
      if m.enabledPoints = [] then .error (.valueError "No enabled delay points in config")
      else .ok () := by
  simp [validateInitialConfig, h m.save, hi]

end ReduceConfig

/-! ### Small configs -/

/-- A kernel with enabled points at the given PC offsets. -/
def enabledKernel (pcs : List String) (h : pcs.Nodup) : KernelDelayConfig where
  kernelName := some "test"
  instrumentationPoints :=
    { entries := pcs.map fun pc => (pc, ⟨some "BAR.SYNC 0", some 100, some true⟩)
      nodup := by simpa [Function.comp_def] using h }

def oneKernelConfig (kernel : KernelDelayConfig) : DelayConfig := ⟨⟨[("kernel_0", kernel)], by simp⟩⟩

/-- A reduction of one kernel whose test script is a function of the enabled
points. -/
def scriptedReduction (kernel : KernelDelayConfig) (oracle : Finset PointKey → Bool) : ReduceConfig where
  delayConfig := oneKernelConfig kernel
  testScript := some fun candidate => oracle candidate.enabledKeys

theorem scriptedReduction_decides (kernel : KernelDelayConfig) (oracle : Finset PointKey → Bool) :
    (scriptedReduction kernel oracle).Decides oracle := fun _ => rfl

end CuTracer.Reduce
