import CuTracer.Reduce.Linear

/-! The linear reducer under any deterministic oracle. Between two iterations the mutator has the
essential points so far enabled and those still to test, and the race occurs under them. Where more
points never hide the race, each point that is returned is needed. -/

namespace CuTracer.Reduce

/-- Enabling more points does not hide the race. -/
def Monotone (oracle : Finset PointKey → Bool) : Prop :=
  ∀ S T, S ⊆ T → oracle S = true → oracle T = true

/-- The race occurs under the enabled points of the mutator, which are the essential points so far
and those still to test, and an essential point was needed for it beside at least these. -/
structure ReduceInv (oracle : Finset PointKey → Bool) (m : DelayConfigMutator)
    (essential rest : List DelayPoint) : Prop where
  enabled : m.enabledPoints = essential ++ rest
  interesting : oracle (keySet m.enabledPoints) = true
  needed : ∀ p ∈ essential, ∃ S, keySet m.enabledPoints ⊆ S ∧ oracle (S.erase p.key) = false

section

variable {config : ReduceConfig} {oracle : Finset PointKey → Bool} {runs : ℕ}
  {m m' : DelayConfigMutator} {point : DelayPoint} {essential essential' rest done : List DelayPoint}

theorem find_enabled (hpoint : point ∈ m.enabledPoints) :
    findPointInMutator m point.kernelKey point.pcOffset = some point := by
  unfold findPointInMutator
  cases hfind : m.enabledPoints.find? fun p => p.kernelKey = point.kernelKey ∧ p.pcOffset = point.pcOffset with
  | none =>
    have hnone := List.find?_eq_none.mp hfind point hpoint
    simp at hnone
  | some p =>
    have hkey := List.find?_some hfind
    simp only [decide_eq_true_eq] at hkey
    have hsame : p.key = point.key := Prod.ext hkey.1 hkey.2
    rw [List.inj_on_of_nodup_map (enabledPoints_keys_nodup m) (List.mem_of_find?_eq_some hfind) hpoint hsame]

/-- Disabling the next point to test leaves the others enabled, in their order. -/
theorem enabledPoints_disablePoint (henabled : m.enabledPoints = essential ++ point :: rest) :
    (disablePoint m point).enabledPoints = essential ++ rest := by
  have hpoint : point ∈ m.enabledPoints := by
    rw [henabled]
    exact List.mem_append_right _ List.mem_cons_self
  have hnodup := enabledPoints_keys_nodup m
  rw [henabled, List.map_append, List.map_cons, List.nodup_middle, List.nodup_cons, ← List.map_append] at hnodup
  have hothers : ∀ p ∈ essential ++ rest, p.key ≠ point.key := fun p hp hsame =>
    hnodup.1 (hsame ▸ List.mem_map_of_mem hp)
  rw [disablePoint, find_enabled hpoint]
  dsimp only
  rw [enabledPoints_setPointEnabled_false, henabled, List.filter_append, List.filter_cons_of_neg (by simp),
    ← List.filter_append, List.filter_eq_self]
  exact fun p hp => decide_eq_true (hothers p hp)

theorem testPointEssentiality_decided (hd : config.Decides oracle) (runs : ℕ) :
    testPointEssentiality point m config runs =
      .ok (!oracle ((keySet m.enabledPoints).erase point.key)) := by
  rw [testPointEssentiality, ReduceConfig.runTestWithConfidence_decided hd,
    DelayConfigMutator.enabledKeys_save, DelayConfigMutator.clone_eq, keySet_disablePoint]

theorem ReduceInv.step (hinv : ReduceInv oracle m essential (point :: rest)) :
    if oracle ((keySet m.enabledPoints).erase point.key) then
      ReduceInv oracle (disablePoint m point) essential rest
    else ReduceInv oracle m (essential ++ [point]) rest := by
  split
  · rename_i hstill
    refine ⟨enabledPoints_disablePoint hinv.enabled, ?_, fun p hp => ?_⟩
    · rw [keySet_disablePoint]
      exact hstill
    · obtain ⟨S, hS, hneeded⟩ := hinv.needed p hp
      refine ⟨S, ?_, hneeded⟩
      rw [keySet_disablePoint]
      exact (Finset.erase_subset _ _).trans hS
  · rename_i hgone
    refine ⟨?_, hinv.interesting, fun p hp => ?_⟩
    · rw [hinv.enabled, List.append_assoc]
      rfl
    · rcases List.mem_append.mp hp with hold | hnew
      · exact hinv.needed p hold
      · rw [List.mem_singleton.mp hnew]
        exact ⟨_, Finset.Subset.refl _, Bool.eq_false_iff.mpr hgone⟩

/-- Any number of iterations, from a state of the invariant. -/
theorem reduceLoop_keeps (hd : config.Decides oracle) (runs : ℕ) (done rest : List DelayPoint)
    (hinv : ReduceInv oracle m essential (done ++ rest)) :
    ∃ m' essential', reduceLoop config runs done m essential = .ok (m', essential') ∧
      reduceLoop config runs (done ++ rest) m essential = reduceLoop config runs rest m' essential' ∧
      ReduceInv oracle m' essential' rest := by
  induction done generalizing m essential with
  | nil => exact ⟨m, essential, rfl, rfl, hinv⟩
  | cons point done ih =>
    have hstep := hinv.step
    rw [List.cons_append, reduceLoop, reduceLoop, testPointEssentiality_decided hd]
    cases hstill : oracle ((keySet m.enabledPoints).erase point.key) with
    | true =>
      rw [hstill] at hstep
      exact ih hstep
    | false =>
      rw [hstill] at hstep
      exact ih hstep

end

/-- What the linear reducer returns, and what its loop goes through. -/
structure Reduces (config : ReduceConfig) (oracle : Finset PointKey → Bool) (r : ReduceResult) : Prop where
  /-- The race occurs under the points that are enabled after every iteration. -/
  interesting : ∀ done rest,
    (DelayConfigMutator.load config.delayConfig).enabledPoints = done ++ rest →
    ∃ m essential, reduceLoop config 1 done (.load config.delayConfig) [] = .ok (m, essential) ∧
      reduceLoop config 1 (done ++ rest) (.load config.delayConfig) [] =
        reduceLoop config 1 rest m essential ∧
      oracle (keySet m.enabledPoints) = true
  /-- The mutator ends with the returned points enabled. -/
  final : ∃ m, reduceLoop config 1 (DelayConfigMutator.load config.delayConfig).enabledPoints
    (.load config.delayConfig) [] = .ok (m, r.essentialPoints) ∧ m.enabledPoints = r.essentialPoints
  /-- So does the config that is saved, wherever one is asked for. -/
  saved : ∀ path ∈ config.outputPath, ∃ minimal, r.minimalConfig = some (path, minimal) ∧
    (DelayConfigMutator.load minimal).enabledPoints = r.essentialPoints
  needed : Monotone oracle → ∀ p ∈ r.essentialPoints,
    oracle ((keySet r.essentialPoints).erase p.key) = false

/-- The linear reducer keeps the race, and returns what is needed for it. -/
theorem reduceDelayPoints_keeps (config : ReduceConfig) (oracle : Finset PointKey → Bool)
    (hd : config.Decides oracle)
    (hinteresting : oracle (keySet (DelayConfigMutator.load config.delayConfig).enabledPoints) = true) :
    ((DelayConfigMutator.load config.delayConfig).enabledPoints = [] ∧
      reduceDelayPoints config 1 = .error (.valueError "No enabled delay points in config")) ∨
    ∃ r, reduceDelayPoints config 1 = .ok r ∧ Reduces config oracle r := by
  have hstart : ReduceInv oracle (.load config.delayConfig) []
      (DelayConfigMutator.load config.delayConfig).enabledPoints :=
    ⟨rfl, hinteresting, fun p hp => absurd hp List.not_mem_nil⟩
  have hvalid := ReduceConfig.validateInitialConfig_decided hd (.load config.delayConfig) (by
    rw [DelayConfigMutator.enabledKeys_save]
    exact hinteresting)
  by_cases hne : (DelayConfigMutator.load config.delayConfig).enabledPoints = []
  · refine Or.inl ⟨hne, ?_⟩
    rw [if_pos hne] at hvalid
    simp only [reduceDelayPoints, hvalid]
  · rw [if_neg hne] at hvalid
    obtain ⟨m, essential, hloop, -, hinv⟩ := reduceLoop_keeps hd 1
      (DelayConfigMutator.load config.delayConfig).enabledPoints [] (by rwa [List.append_nil])
    have henabled : m.enabledPoints = essential := by
      rw [hinv.enabled, List.append_nil]
    refine Or.inr ⟨_, by simp only [reduceDelayPoints, hvalid, hloop]; rfl, ?_, ⟨m, hloop, henabled⟩, ?_, ?_⟩
    · intro done rest hsplit
      obtain ⟨m', essential', hloop', hrest, hinv'⟩ := reduceLoop_keeps hd 1 done rest (hsplit ▸ hstart)
      exact ⟨m', essential', hloop', hrest, hinv'.interesting⟩
    · intro path hpath
      refine ⟨m.save, by rw [Option.mem_def.mp hpath]; rfl, ?_⟩
      have hload : DelayConfigMutator.load m.save = m := DelayConfigMutator.clone_eq m
      rw [hload]
      exact henabled
    · intro hmono p hp
      obtain ⟨S, hS, hneeded⟩ := hinv.needed p hp
      rw [henabled] at hS
      by_contra hother
      have htrue := hmono _ _ (Finset.erase_subset_erase _ hS) (Bool.eq_true_of_not_eq_false hother)
      rw [hneeded] at htrue
      cases htrue

/-- The race needs the last of three points and one of the others. -/
def lastAndAnother (on : Finset PointKey) : Bool :=
  decide (("kernel_0", "0x110") ∈ on) &&
    (decide (("kernel_0", "0x100") ∈ on) || decide (("kernel_0", "0x108") ∈ on))

theorem reduceDelayPoints_keeps_three : ∃ r,
    reduceDelayPoints (scriptedReduction (enabledKernel ["0x100", "0x108", "0x110"] (by decide))
      lastAndAnother) 1 = .ok r ∧
    Reduces (scriptedReduction (enabledKernel ["0x100", "0x108", "0x110"] (by decide)) lastAndAnother)
      lastAndAnother r := by
  have hkeeps := reduceDelayPoints_keeps
    (scriptedReduction (enabledKernel ["0x100", "0x108", "0x110"] (by decide)) lastAndAnother)
    lastAndAnother (scriptedReduction_decides _ _) (by decide +kernel)
  exact hkeeps.resolve_left fun hnone => absurd hnone.1 (by decide +kernel)

end CuTracer.Reduce
