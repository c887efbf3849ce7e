import CuTracer.Reduce.Oracle
import Mathlib.Data.Finset.Basic

/-! The linear reducer: one config, mutated point by point. A point stays
enabled exactly if the race disappears without it. -/

namespace CuTracer.Reduce

def findPointInMutator (m : DelayConfigMutator) (kernelKey pcOffset : String) : Option DelayPoint :=
  m.enabledPoints.find? fun p => p.kernelKey = kernelKey ∧ p.pcOffset = pcOffset

/-- Disable the enabled point with the key of `point`, if there is one. -/
def disablePoint (m : DelayConfigMutator) (point : DelayPoint) : DelayConfigMutator :=
  match findPointInMutator m point.kernelKey point.pcOffset with
  | some p => m.setPointEnabled p false
  | none => m

/-- Whether the race disappears without the point. -/
def testPointEssentiality (point : DelayPoint) (m : DelayConfigMutator) (config : ReduceConfig)
    (confidenceRuns : ℕ) : Except ReduceError Bool :=
  match config.runTestWithConfidence (disablePoint m.clone point).save confidenceRuns with
  | .error e => .error e
  | .ok raceOccurs => .ok (!raceOccurs)

/-- The loop over the points still to test, with the mutator and the essential
points so far. -/
def reduceLoop (config : ReduceConfig) (confidenceRuns : ℕ) :
    List DelayPoint → DelayConfigMutator → List DelayPoint →
      Except ReduceError (DelayConfigMutator × List DelayPoint)
  | [], m, essential => .ok (m, essential)
  | point :: rest, m, essential =>
    match testPointEssentiality point m config confidenceRuns with
    | .error e => .error e
    | .ok true => reduceLoop config confidenceRuns rest m (essential ++ [point])
    | .ok false => reduceLoop config confidenceRuns rest (disablePoint m point) essential

def reduceDelayPoints (config : ReduceConfig) (confidenceRuns : ℕ) : Except ReduceError ReduceResult :=
  let m := DelayConfigMutator.load config.delayConfig
  match config.validateInitialConfig m with
  | .error e => .error e
  | .ok () =>
    let pointsToTest := m.enabledPoints
    match reduceLoop config confidenceRuns pointsToTest m [] with
    | .error e => .error e
    | .ok (m, essential) => .ok
      { totalPoints := pointsToTest.length
        essentialPoints := essential
        iterations := pointsToTest.length
        strategy := "linear"
        minimalConfig := config.outputPath.map fun path => (path, m.save) }

/-! ### The enabled keys of the mutated config -/

theorem enabledPoints_setPointEnabled_false (m : DelayConfigMutator) (point : DelayPoint) :
    (m.setPointEnabled point false).enabledPoints = m.enabledPoints.filter fun p => p.key ≠ point.key := by
  simp only [DelayConfigMutator.enabledPoints, DelayConfigMutator.setPointEnabled,
    DelayConfigMutator.delayPoints_setSelected]
  induction m.delayPoints with
  | nil => rfl
  | cons p ps ih =>
    by_cases hk : p.key = point.key <;> cases hp : p.enabled <;>
      simp_all [setEnabled]

/-- Disabling a point removes its key from the enabled keys, found or not. -/
theorem keySet_disablePoint (m : DelayConfigMutator) (point : DelayPoint) :
    keySet (disablePoint m point).enabledPoints = (keySet m.enabledPoints).erase point.key := by
  unfold disablePoint
  split
  next p hp =>
    have hk : p.key = point.key := by
      have := List.find?_some hp
      simp only [decide_eq_true_eq] at this
      exact Prod.ext this.1 this.2
    rw [enabledPoints_setPointEnabled_false, hk]
    ext k
    simp only [mem_keySet, List.mem_filter, decide_eq_true_eq, Finset.mem_erase]
    constructor
    · rintro ⟨q, ⟨hq, hne⟩, rfl⟩
      exact ⟨hne, q, hq, rfl⟩
    · rintro ⟨hne, q, hq, rfl⟩
      exact ⟨q, ⟨hq, hne⟩, rfl⟩
  next hp =>
    rw [Finset.erase_eq_of_notMem]
    rw [mem_keySet]
    rintro ⟨q, hq, hk⟩
    have := List.find?_eq_none.mp hp q hq
    simp only [DelayPoint.key, Prod.mk.injEq] at hk
    simp [hk] at this

/-! ### The oracle that asks for a set of points -/

/-- Interesting iff every point of `E` is enabled. -/
def needs (E : Finset PointKey) (on : Finset PointKey) : Bool := decide (E ⊆ on)

/-- What the loop preserves under `needs E`: all of `E` stays enabled, and it
keeps exactly the tested points in `E`. -/
theorem reduceLoop_needs {config : ReduceConfig} {E : Finset PointKey} (runs : ℕ)
    (hd : config.Decides (needs E)) (rest : List DelayPoint) (m : DelayConfigMutator)
    (essential : List DelayPoint) (hE : E ⊆ keySet m.enabledPoints) :
    ∃ m', reduceLoop config runs rest m essential =
      .ok (m', essential ++ rest.filter fun p => p.key ∈ E) := by
  induction rest generalizing m essential with
  | nil => exact ⟨m, by simp [reduceLoop]⟩
  | cons point rest ih =>
    have htest : testPointEssentiality point m config runs = .ok (decide (point.key ∈ E)) := by
      rw [testPointEssentiality, ReduceConfig.runTestWithConfidence_decided hd,
        DelayConfigMutator.enabledKeys_save, DelayConfigMutator.clone_eq, keySet_disablePoint]
      by_cases hp : point.key ∈ E <;> simp [needs, Finset.subset_erase, hE, hp]
    by_cases hp : point.key ∈ E
    · obtain ⟨m', hm⟩ := ih m (essential ++ [point]) hE
      exact ⟨m', by simp [reduceLoop, htest, hp, hm]⟩
    · have hE' : E ⊆ keySet (disablePoint m point).enabledPoints := by
        rw [keySet_disablePoint]
        exact Finset.subset_erase.mpr ⟨hE, hp⟩
      obtain ⟨m', hm⟩ := ih (disablePoint m point) essential hE'
      exact ⟨m', by simp [reduceLoop, htest, hp, hm]⟩

/-- The linear reducer returns exactly the enabled points in `E`. -/
theorem reduceDelayPoints_needs {config : ReduceConfig} {E : Finset PointKey} (runs : ℕ)
    (hd : config.Decides (needs E)) (hE : E ⊆ config.delayConfig.enabledKeys)
    (hne : (DelayConfigMutator.load config.delayConfig).enabledPoints ≠ []) :
    ∃ r, reduceDelayPoints config runs = .ok r ∧
      r.essentialPoints =
        (DelayConfigMutator.load config.delayConfig).enabledPoints.filter fun p => p.key ∈ E := by
  have hvalid := ReduceConfig.validateInitialConfig_decided hd (.load config.delayConfig)
    (decide_eq_true hE)
  rw [if_neg hne] at hvalid
  obtain ⟨m', hloop⟩ := reduceLoop_needs runs hd
    (DelayConfigMutator.load config.delayConfig).enabledPoints (.load config.delayConfig) [] hE
  simp only [reduceDelayPoints, hvalid, hloop]
  exact ⟨_, rfl, rfl⟩

end CuTracer.Reduce
