import CuTracer.Stress.Geometry
import CuTracer.Stress.Winner

/-! Which schedules a resumed result is accepted under. The checks compare the
ladder, the attempts per delay and, where the result has them, the targets. They
do not compare the strategy or the warpgroups, so a result can be taken up under
a schedule that plans other trials at the same positions. -/

namespace CuTracer.Stress

/-- Blocks of one positive length that differ between items determine the items. -/
theorem flatMap_inj {α β : Type*} {f : α → List β} {n : ℕ} (hn : 0 < n)
    (hlen : ∀ a, (f a).length = n) (hf : Function.Injective f) {l l' : List α}
    (h : l.flatMap f = l'.flatMap f) : l = l' := by
  induction l generalizing l' with
  | nil =>
    cases l' with
    | nil => rfl
    | cons b bs =>
      have := congrArg List.length h
      simp only [List.flatMap_nil, List.length_nil, List.flatMap_cons, List.length_append, hlen] at this
      omega
  | cons a as ih =>
    cases l' with
    | nil =>
      have := congrArg List.length h
      simp only [List.flatMap_nil, List.length_nil, List.flatMap_cons, List.length_append, hlen] at this
      omega
    | cons b bs =>
      rw [List.flatMap_cons, List.flatMap_cons] at h
      obtain ⟨h1, h2⟩ := List.append_inj h (by rw [hlen, hlen])
      rw [hf h1, ih h2]

theorem length_flatMap_const {α β : Type*} {f : α → List β} {n : ℕ} (hlen : ∀ a, (f a).length = n)
    (l : List α) : (l.flatMap f).length = l.length * n := by
  induction l with
  | nil => simp
  | cons a as ih =>
    rw [List.flatMap_cons, List.length_append, hlen, ih, List.length_cons, Nat.succ_mul, Nat.add_comm]

/-! ### What a schedule shows -/

def warpgroupTrials (attempts delayNs : ℕ) (warpgroup : Option ℕ) : List Trial :=
  (List.range attempts).map fun attempt => ⟨delayNs, attempt, warpgroup, none⟩

theorem warpgroupTrials_injective {attempts : ℕ} (h : 1 ≤ attempts) (delayNs : ℕ) :
    Function.Injective (warpgroupTrials attempts delayNs) := by
  intro w w' he
  have := congrArg (fun l => l.head?.map Trial.warpgroup) he
  obtain ⟨n, rfl⟩ := Nat.exists_eq_add_of_le' h
  simpa [warpgroupTrials, List.range_succ_eq_map] using this

/-- A random sweep determines its warpgroups, given its ladder and attempts. -/
theorem sweep_inj {ladder : List ℕ} {attempts : ℕ} (hladder : ladder ≠ []) (hattempts : 1 ≤ attempts)
    {axis axis' : List (Option ℕ)}
    (h : (ladder.flatMap fun d => axis.flatMap (warpgroupTrials attempts d)) =
      ladder.flatMap fun d => axis'.flatMap (warpgroupTrials attempts d)) : axis = axis' := by
  have hlen : ∀ d w, (warpgroupTrials attempts d w).length = attempts := by simp [warpgroupTrials]
  have hblock : ∀ (axis : List (Option ℕ)) d,
      (axis.flatMap (warpgroupTrials attempts d)).length = axis.length * attempts :=
    fun axis d => length_flatMap_const (hlen d) axis
  have hsize := congrArg List.length h
  rw [length_flatMap_const (hblock axis), length_flatMap_const (hblock axis')] at hsize
  have hsame := Nat.eq_of_mul_eq_mul_left (List.length_pos_of_ne_nil hladder) hsize
  cases ladder with
  | nil => exact absurd rfl hladder
  | cons d ds =>
    rw [List.flatMap_cons, List.flatMap_cons] at h
    have hfirst := (List.append_inj h (by rw [hblock, hblock, hsame])).1
    exact flatMap_inj hattempts (hlen d) (warpgroupTrials_injective hattempts d) hfirst

theorem warpgroupAxis_inj {A B : StressConfig} (h : warpgroupAxis A = warpgroupAxis B) :
    A.warpgroupIds = B.warpgroupIds := by
  unfold warpgroupAxis at h
  split_ifs at h with hA hB hB
  · rw [hA, hB]
  · cases hb : B.warpgroupIds with
    | nil => exact absurd hb hB
    | cons b bs => simp [hb] at h
  · cases ha : A.warpgroupIds with
    | nil => exact absurd ha hA
    | cons a as => simp [ha] at h
  · exact List.map_injective_iff.mpr (Option.some_injective ℕ) h

variable {config : StressConfig}

theorem trialSchedule_random (h : config.strategy = .random) (targets : List DelayTarget) :
    trialSchedule config targets = config.delayLadderNs.flatMap fun d =>
      (warpgroupAxis config).flatMap (warpgroupTrials config.attemptsPerDelay d) := by
  simp only [trialSchedule, h]
  rfl

variable {targets : List DelayTarget}

/-- An isolate search has a target, as its geometry has a warp. -/
theorem isolateTargets_ne_nil {geometry : Option LaunchGeometry}
    (h : isolateTargets config geometry = .ok targets) (hgeometry : ∀ g ∈ geometry, 1 ≤ g.warps) :
    targets ≠ [] := by
  unfold isolateTargets at h
  split_ifs at h with hnone
  cases h
  have hsorted : ∀ {xs : List ℕ}, xs ≠ [] → sortedSet xs ≠ [] := by
    intro xs hxs hnil
    obtain ⟨x, hx⟩ := List.exists_mem_of_ne_nil xs hxs
    have := mem_sortedSet.mpr hx
    simp [hnil] at this
  have hranks : isolateRankList config geometry ≠ [] := by
    unfold isolateRankList
    cases hr : config.isolateRanks with
    | some ranks =>
      have : ranks ≠ [] := fun hnil => config.ranks_ne_nil (hnil ▸ hr)
      simpa using hsorted this
    | none =>
      cases geometry with
      | none => simp
      | some g =>
        simp only
        split_ifs with hc
        · simp only [ne_eq, List.map_eq_nil_iff, List.reverse_eq_nil_iff, List.range_eq_nil]
          omega
        · simp
  have hwarps : isolateWarpList config geometry ≠ [] := by
    unfold isolateWarpList
    split
    · rename_i warps hw
      exact hsorted fun hnil => config.warps_ne_nil (hnil ▸ hw)
    · rename_i hw
      cases geometry with
      | none => simp [explicitTargets, hw] at hnone
      | some g =>
        have := hgeometry g rfl
        simp [maxWarps]
        omega
  obtain ⟨rank, hrank⟩ := List.exists_mem_of_ne_nil _ hranks
  obtain ⟨warp, hwarp⟩ := List.exists_mem_of_ne_nil _ hwarps
  exact List.ne_nil_of_mem
    (List.mem_flatMap.mpr ⟨rank, hrank, List.mem_map.mpr ⟨warp, hwarp, rfl⟩⟩)

theorem baselineResult_warps {world : World} {resume : Option StressResult}
    {baseline : BaselineResult} (hiso : config.strategy = .isolate)
    (h : baselineResult config world resume = .ok baseline) :
    ∀ g ∈ baseline.geometry, 1 ≤ g.warps := by
  intro g hg
  cases resume with
  | some r =>
    cases h
    simp [resumedBaseline] at hg
  | none =>
    have hspec := runBaseline_geometry hiso h
    rw [Option.mem_def] at hg
    rw [hg] at hspec
    obtain ⟨i, -, l, hl, hw⟩ := hspec.warps.1
    exact hw ▸ (one_le_of_mem_runLaunches hl).1

/-- The targets of a plan are empty exactly for a random search. -/
theorem plan_targets {world : World} {disk : Disk} {resume : Option StressResult} {plan : Plan}
    (h : prepareSearch config world disk resume = .ok plan) :
    plan.targets = [] ↔ config.strategy = .random := by
  obtain ⟨baseline, hbaseline, htargets, -⟩ := prepareSearch_ok h
  unfold planTargets at htargets
  cases hs : config.strategy with
  | random =>
    simp only [hs] at htargets
    simpa using (Except.ok.inj htargets).symm
  | isolate =>
    simp only [hs] at htargets
    split_ifs at htargets
    simpa using isolateTargets_ne_nil htargets (baselineResult_warps hs hbaseline)

/-- A planned trial has a target exactly in an isolate search. -/
theorem trialSchedule_target {trial : Trial} (h : trial ∈ trialSchedule config targets) :
    trial.target.isSome ↔ config.strategy = .isolate := by
  unfold trialSchedule at h
  split at h
  · rename_i hs
    simp only [List.mem_flatMap, List.mem_map] at h
    obtain ⟨t, -, d, -, a, -, rfl⟩ := h
    simp [hs]
  · rename_i hs
    simp only [List.mem_flatMap, List.mem_map] at h
    obtain ⟨d, -, w, -, a, -, rfl⟩ := h
    simp [hs]

theorem trialSchedule_ne_nil (h : targets = [] → config.strategy = .random) :
    trialSchedule config targets ≠ [] := by
  obtain ⟨d, hd⟩ := List.exists_mem_of_ne_nil _ config.ladder_ne_nil
  have ha : 0 ∈ List.range config.attemptsPerDelay := List.mem_range.mpr config.attempts_pos
  unfold trialSchedule
  split
  · rename_i hs
    obtain ⟨t, ht⟩ := List.exists_mem_of_ne_nil targets fun hnil => by simp [h hnil] at hs
    exact List.ne_nil_of_mem (List.mem_flatMap.mpr ⟨t, ht, List.mem_flatMap.mpr ⟨d, hd,
      List.mem_map.mpr ⟨0, ha, rfl⟩⟩⟩)
  · have haxis : warpgroupAxis config ≠ [] := by
      unfold warpgroupAxis
      split_ifs with hnil
      · simp
      · simpa using hnil
    obtain ⟨w, hw⟩ := List.exists_mem_of_ne_nil _ haxis
    exact List.ne_nil_of_mem (List.mem_flatMap.mpr ⟨d, hd, List.mem_flatMap.mpr ⟨w, hw,
      List.mem_map.mpr ⟨0, ha, rfl⟩⟩⟩)

/-! ### Accepted results -/

theorem shapeError_eq_none {r : StressResult} (h : shapeError config targets r = none) :
    (∀ ladder ∈ r.delayLadderNs, ladder = config.delayLadderNs) ∧
      (∀ attempts ∈ r.attemptsPerDelay, attempts = config.attemptsPerDelay) ∧
      (r.targets ≠ [] → r.targets = targets.map DelayTarget.toRecord) := by
  unfold shapeError at h
  split_ifs at h with h1 h2
  push Not at h1 h2
  exact ⟨h1.1, h1.2, h2⟩

/-- The plan behind a run that returned. -/
theorem plan_of_outcome {world : World} {disk : Disk} {resume : Option StressResult}
    {r : StressResult} (h : (runStress config world disk resume).outcome = .ok r) :
    ∃ plan, prepareSearch config world disk resume = .ok plan ∧
      runStress config world disk resume = plan.run config world := by
  cases hp : prepareSearch config world disk resume with
  | error e => simp [runStress, hp] at h
  | ok plan => exact ⟨plan, rfl, by simp [runStress, hp]⟩

/-- A result that a run under `A` reported and a run under `B` took up was
counted against the same trials exactly if the strategy and the warpgroups are
the same. -/
theorem resumed_schedule_eq_iff {A B : StressConfig} {worldA worldB : World} {diskA diskB : Disk}
    {resumeA : Option StressResult} {r result : StressResult}
    (hreport : (runStress A worldA diskA resumeA).Reports r)
    (hresume : (runStress B worldB diskB (some r)).outcome = .ok result) :
    (runStress B worldB diskB (some r)).schedule = (runStress A worldA diskA resumeA).schedule ↔
      A.strategy = B.strategy ∧ A.warpgroupIds = B.warpgroupIds := by
  obtain ⟨planA, hA, s, logPath, rfl, -⟩ := reports_cases hreport
  obtain ⟨planB, hB, hrunB⟩ := plan_of_outcome hresume
  have hrunA : runStress A worldA diskA resumeA = planA.run A worldA := by simp [runStress, hA]
  obtain ⟨-, -, -, -, hscheduleA, -⟩ := prepareSearch_ok hA
  obtain ⟨-, -, -, -, hscheduleB, hshape, -⟩ := prepareSearch_ok hB
  obtain ⟨hladder, hattempts, htargets⟩ := shapeError_eq_none (by simpa using hshape)
  replace hladder : A.delayLadderNs = B.delayLadderNs := hladder _ rfl
  replace hattempts : A.attemptsPerDelay = B.attemptsPerDelay := hattempts _ rfl
  have htargetsA := plan_targets hA
  have htargetsB := plan_targets hB
  have hsA : (planA.run A worldA).schedule = trialSchedule A planA.targets := hscheduleA
  have hsB : (planB.run B worldB).schedule = trialSchedule B planB.targets := hscheduleB
  rw [hrunA, hrunB, hsA, hsB]
  constructor
  · intro heq
    -- the first trial shows the strategy
    obtain ⟨trial, htrial⟩ := List.exists_mem_of_ne_nil _ (trialSchedule_ne_nil htargetsA.mp)
    have hiffA := trialSchedule_target htrial
    have hiffB := trialSchedule_target (heq ▸ htrial)
    have hstrategy : A.strategy = B.strategy := by
      cases hsa : A.strategy <;> cases hsb : B.strategy <;> simp_all
    refine ⟨hstrategy, ?_⟩
    cases hs : A.strategy with
    | isolate => rw [A.isolate_no_warpgroups hs, B.isolate_no_warpgroups (hstrategy ▸ hs)]
    | random =>
      rw [trialSchedule_random hs, trialSchedule_random (hstrategy ▸ hs), ← hladder, ← hattempts] at heq
      exact (warpgroupAxis_inj (sweep_inj A.ladder_ne_nil A.attempts_pos heq)).symm
  · rintro ⟨hstrategy, hgroups⟩
    have hsame : planA.targets = planB.targets := by
      cases hs : A.strategy with
      | random => rw [htargetsA.mpr hs, htargetsB.mpr (hstrategy ▸ hs)]
      | isolate =>
        have hne : planA.targets ≠ [] := fun hnil => by simp [htargetsA.mp hnil] at hs
        have := htargets (by simpa [progressResult] using hne)
        exact List.map_injective_iff.mpr DelayTarget.toRecord_injective this
    simp only [trialSchedule, warpgroupAxis, hsame, hstrategy, hgroups, hladder, hattempts]

/-- A random search of one of two warpgroups. -/
def oneWarpgroup (group : Fin 2) : StressConfig :=
  { repeatedLadder with
    warpgroupIds := [group]
    warpgroups_range := by simp; omega
    isolate_no_warpgroups := nofun }

set_option maxRecDepth 2000 in
theorem resumed_schedule_same_warpgroup :
    ∃ r result,
      (runStress (oneWarpgroup 0) (exitCodes fun _ => 1) emptyDisk none).outcome = .ok r ∧
      (runStress (oneWarpgroup 0) (exitCodes fun _ => 1)
        (runStress (oneWarpgroup 0) (exitCodes fun _ => 1) emptyDisk none).disk
        (some r)).outcome = .ok result ∧
      ((runStress (oneWarpgroup 0) (exitCodes fun _ => 1)
          (runStress (oneWarpgroup 0) (exitCodes fun _ => 1) emptyDisk none).disk
          (some r)).schedule =
        (runStress (oneWarpgroup 0) (exitCodes fun _ => 1) emptyDisk none).schedule ↔
        (oneWarpgroup 0).strategy = (oneWarpgroup 0).strategy ∧
          (oneWarpgroup 0).warpgroupIds = (oneWarpgroup 0).warpgroupIds) :=
  ⟨_, _, rfl, rfl, resumed_schedule_eq_iff (.inl rfl) rfl⟩

set_option maxRecDepth 2000 in
/-- A search of warpgroup 0 is taken up after its first trial by a search of
warpgroup 1. -/
theorem resumed_under_other_warpgroup :
    ∃ cp result,
      (runStress (oneWarpgroup 0) (exitCodes fun _ => 1) emptyDisk none).checkpoints[0]? =
        some cp ∧
      (runStress (oneWarpgroup 1) (exitCodes fun _ => 1) cp.disk
        (some cp.result)).outcome = .ok result ∧
      (runStress (oneWarpgroup 1) (exitCodes fun _ => 1) cp.disk
        (some cp.result)).schedule ≠
      (runStress (oneWarpgroup 0) (exitCodes fun _ => 1) emptyDisk none).schedule :=
  ⟨_, _, rfl, rfl, by decide⟩

end CuTracer.Stress
