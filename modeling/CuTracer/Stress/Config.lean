import CuTracer.Library.SortedSet
import CuTracer.Stress.Launch
import Mathlib.Data.Rat.Defs

/-! The inputs of a stress search and its plan: which targets an isolate search
visits, and every planned attempt in run order. A random search sweeps the delay
ladder outermost, each delay over every warpgroup; an isolate search gives each
target every delay before it moves to the next. -/

namespace CuTracer.Stress

/-- A file in a directory, by absolute path. -/
structure Path where
  dir : String
  name : String
  deriving DecidableEq

inductive Strategy where
  | random | isolate
  deriving DecidableEq

/-- CUTracer warp masks are 32 bits wide. -/
def maxWarps : ℕ := 32

/-- `hex(n)`. -/
def hex (n : ℕ) : String := "0x" ++ String.ofList (Nat.toDigits 16 n)

theorem toList_hex (n : ℕ) : (hex n).toList = '0' :: 'x' :: Nat.toDigits 16 n := by
  simp [hex]

/-- One actor of an isolate search: a CTA-local warp on one cluster rank, or on
every CTA of a launch without clusters. -/
structure DelayTarget where
  warp : ℕ
  clusterRank : Option ℕ
  deriving DecidableEq

/-- `DelayTarget.to_dict()`. -/
structure TargetRecord where
  clusterRank : Option ℕ
  warp : ℕ
  warpMask : String
  deriving DecidableEq

namespace DelayTarget

def warpMask (t : DelayTarget) : String := hex (1 <<< t.warp)

def label (t : DelayTarget) : String :=
  match t.clusterRank with
  | none => "warp " ++ toString t.warp
  | some rank => "cluster rank " ++ toString rank ++ ", warp " ++ toString t.warp

def toRecord (t : DelayTarget) : TargetRecord := ⟨t.clusterRank, t.warp, t.warpMask⟩

theorem toRecord_injective : Function.Injective toRecord := by
  rintro ⟨w, r⟩ ⟨w', r'⟩ h
  simp only [toRecord, TargetRecord.mk.injEq] at h
  rw [h.1, h.2.1]

end DelayTarget

/-- The inputs of a search, with the checks of `__post_init__`. -/
structure StressConfig where
  delayLadderNs : List ℕ
  enableProb : ℚ
  warpgroupIds : List ℕ
  attemptsPerDelay : ℕ
  stopOnFirst : Bool
  notInterestingExitCodes : List ℤ
  kernelFilters : Option String
  baselineRuns : ℕ
  outputDir : String
  kernelTimeoutS : ℕ
  hangIsBug : Bool
  strategy : Strategy
  isolateRanks : Option (List ℕ)
  isolateWarps : Option (List ℕ)
  delayPatterns : Option String
  expectedKernelName : Option String
  expectedKernelChecksum : Option String
  ladder_ne_nil : delayLadderNs ≠ []
  ladder_pos : ∀ delay ∈ delayLadderNs, 1 ≤ delay
  attempts_pos : 1 ≤ attemptsPerDelay
  prob_range : 0 < enableProb ∧ enableProb ≤ 1
  warpgroups_range : ∀ group ∈ warpgroupIds, group < 8
  isolate_no_warpgroups : strategy = .isolate → warpgroupIds = []
  random_no_targets : strategy = .random → isolateRanks = none ∧ isolateWarps = none
  ranks_ne_nil : isolateRanks ≠ some []
  warps_ne_nil : isolateWarps ≠ some []
  warps_range : ∀ warps, isolateWarps = some warps → ∀ warp ∈ warps, warp < maxWarps

/-! Checks that many configs pass the same way. -/

theorem prob_range_one : 0 < (1 : ℚ) ∧ (1 : ℚ) ≤ 1 := by decide

theorem attempts_pos_one : 1 ≤ 1 := Nat.le_refl 1

theorem warpgroups_range_nil : ∀ group ∈ ([] : List ℕ), group < 8 := nofun

theorem none_ne_some_nil : (none : Option (List ℕ)) ≠ some [] := nofun

theorem warps_range_none :
    ∀ warps, (none : Option (List ℕ)) = some warps → ∀ warp ∈ warps, warp < maxWarps := nofun

/-! ### Isolate targets -/

variable (config : StressConfig)

def isolateWarpList (geometry : Option LaunchGeometry) : List ℕ :=
  match config.isolateWarps with
  | some warps => sortedSet warps
  | none => List.range (min maxWarps ((geometry.map (·.warps)).getD 0))

/-- The cluster ranks it visits, high to low. -/
def isolateRankList (geometry : Option LaunchGeometry) : List (Option ℕ) :=
  match config.isolateRanks, geometry with
  | some ranks, _ => (sortedSet ranks).reverse.map some
  | none, some g => if 1 < g.clusterSize then (List.range g.clusterSize).reverse.map some else [none]
  | none, none => [none]

/-- Whether ranks and warps are both given, so that no geometry is needed. -/
def explicitTargets : Bool :=
  config.isolateRanks.isSome && config.isolateWarps.isSome

/-- `_isolate_targets`: the targets in search order. -/
def isolateTargets (geometry : Option LaunchGeometry) : Except StressError (List DelayTarget) :=
  if ¬ explicitTargets config ∧ geometry = none then
    if config.baselineRuns ≤ 0 then
      .error (.valueError ("an isolate search that discovers its targets from the control arm " ++
        "needs baseline_runs >= 1; pass baseline_runs >= 1, or the isolate_ranks and " ++
        "isolate_warps explicitly"))
    else
      .error (.valueError ("the control arm recorded no instrumented launch with delay points, " ++
        "so there is nothing to isolate; check the kernel filter and the delay patterns, or " ++
        "pass the ranks and warps explicitly"))
  else
    .ok ((isolateRankList config geometry).flatMap fun rank =>
      (isolateWarpList config geometry).map fun warp => ⟨warp, rank⟩)

/-! ### The schedule -/

structure Trial where
  delayNs : ℕ
  attempt : ℕ
  warpgroup : Option ℕ
  target : Option DelayTarget
  deriving DecidableEq

/-- `[int(x) for x in warpgroup_ids] or [None]`. -/
def warpgroupAxis : List (Option ℕ) :=
  if config.warpgroupIds = [] then [none] else config.warpgroupIds.map some

/-- `_trial_schedule`: every planned attempt, in run order. -/
def trialSchedule (targets : List DelayTarget) : List Trial :=
  match config.strategy with
  | .isolate =>
    targets.flatMap fun target =>
      config.delayLadderNs.flatMap fun delayNs =>
        (List.range config.attemptsPerDelay).map fun attempt => ⟨delayNs, attempt, none, some target⟩
  | .random =>
    config.delayLadderNs.flatMap fun delayNs =>
      (warpgroupAxis config).flatMap fun warpgroup =>
        (List.range config.attemptsPerDelay).map fun attempt => ⟨delayNs, attempt, warpgroup, none⟩

/-- `None` or the number, as a format string prints it. -/
def optionText : Option ℕ → String
  | none => "None"
  | some n => toString n

/-- `_attempt_config_name` without its suffix. -/
def attemptConfigStem (trial : Trial) : String :=
  match trial.target with
  | none =>
    "delay-" ++ toString trial.delayNs ++ "-wg-" ++ optionText trial.warpgroup ++
      "-attempt-" ++ toString trial.attempt
  | some target =>
    "delay-" ++ toString trial.delayNs ++ "-rank-" ++
      (match target.clusterRank with | none => "all" | some rank => toString rank) ++
      "-warp-" ++ toString target.warp ++ "-attempt-" ++ toString trial.attempt

theorem attemptConfigStem_head (trial : Trial) :
    (attemptConfigStem trial).toList.head? = some 'd' := by
  unfold attemptConfigStem
  split <;> simp

def attemptConfigName (trial : Trial) : String := attemptConfigStem trial ++ ".json"

def attemptConfigPath (trial : Trial) : Path :=
  ⟨config.outputDir, attemptConfigName trial⟩

end CuTracer.Stress
