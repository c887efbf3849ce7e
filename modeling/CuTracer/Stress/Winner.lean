import CuTracer.Stress.Trace

/-! Whether the config of the first reproduction is still on disk when a search
returns. The names of delay configs repeat where the ladder or the warpgroups
do, so a search that goes on after its first reproduction may run a later trial
under the winner's name, which deletes the winning config before it runs. -/

namespace CuTracer.Stress

variable {config : StressConfig} {world : World}

/-- A loop that reaches a stopped state ends there. -/
theorem Plan.length_of_stop {plan : Plan} {k : ℕ} {ran : Loop.Ran Planned SearchState StressError}
    (hk : (plan.loop config world).ran[k]? = some ran) (hok : ran.error = none)
    (hstop : ran.state.stop = true) : (plan.loop config world).ran.length ≤ k + 1 := by
  have hrest := (trialLoop config world).run_resume plan.remaining hk hok
  rw [(trialLoop config world).run_of_stop hstop] at hrest
  have hdrop : [] = (plan.loop config world).ran.drop (k + 1) := congrArg Loop.Result.ran hrest
  have := congrArg List.length hdrop
  simp only [List.length_nil, List.length_drop] at this
  omega

def trialsLeft (schedule : List Trial) (resume : Option StressResult) : List Planned :=
  schedule.zipIdx.drop ((resume.map StressResult.attempted).getD 0).toNat

/-- The delay config `dump` that the attempt described by `t` has dumped, and the
trials the run has left after it: the attempt is the first of the run that
reproduces, or one of an earlier run that the search was resumed from. -/
inductive WonBy (config : StressConfig) (world : World) (disk : Disk)
    (resume : Option StressResult) (jobs : List Planned) (t : TriggeringConfig) :
    Dump → List Planned → Prop where
  | here {pre later : List Planned} {job : Planned} {dump : Dump} :
      resume.bind StressResult.triggering = none → jobs = pre ++ job :: later →
      (∀ j ∈ pre, jobTriggering config world j = none) → jobTriggering config world job = some t →
      (world.attempt job.2).dump = some dump → WonBy config world disk resume jobs t dump later
  | earlier {dump : Dump} :
      resume.bind StressResult.triggering = some t → disk.configs t.configPath = some dump →
      WonBy config world disk resume jobs t dump jobs

/-- No later trial runs under the winner's name, or the last that does leaves the
same config. -/
def KeptBy (config : StressConfig) (world : World) (path : Path) (dump : Dump)
    (later : List Planned) : Prop :=
  config.stopOnFirst = false →
    ∀ job, lastWriter config path later = some job → jobLeaves config world job = some dump

theorem contentAfter_eq_iff {path : Path} {jobs : List Planned} {dump : Dump} :
    contentAfter config world path jobs (some dump) = some dump ↔
      ∀ job, lastWriter config path jobs = some job → jobLeaves config world job = some dump := by
  unfold contentAfter
  cases lastWriter config path jobs <;> simp

theorem prepareSearch_start {disk : Disk} {resume : Option StressResult} {plan : Plan}
    (h : prepareSearch config world disk resume = .ok plan) :
    plan.start.triggering = resume.bind StressResult.triggering ∧
      plan.start.attempted = (resume.map StressResult.attempted).getD 0 ∧
      plan.remaining = trialsLeft plan.schedule resume ∧
      ((∀ r ∈ resume, ResultNames r) → ∀ path : Path, path.IsAttemptConfig →
        plan.start.disk.configs path = disk.configs path) ∧
      ∀ t ∈ plan.start.triggering, plan.start.disk.configs t.configPath ≠ none := by
  obtain ⟨-, -, -, -, -, -, hcount, logPath, logSize, files, -, hstart⟩ := prepareSearch_ok h
  refine ⟨?_, ?_, ?_, ?_, ?_⟩
  · rw [hstart]
    cases resume <;> rfl
  · rw [hstart]
    cases resume <;> rfl
  · rw [Plan.remaining, trialsLeft, hstart]
    cases resume <;> rfl
  · intro hnames path hpath
    rw [hstart]
    refine if_neg fun hmem => ?_
    cases resume with
    | none => simp [fromKeys] at hmem
    | some r => exact hpath.ne ((hnames r rfl).1 path (mem_fromKeys.mp hmem.1)) rfl
  · have := (countError_eq_none hcount).2.2.2.2
    rw [hstart]
    cases resume <;> exact this

/-- With `stop_on_first` a reproduction is the last trial that runs. -/
theorem Plan.nothing_after_winner {plan : Plan}
    (hinv : SearchInv config plan.start.attempted.toNat plan.start) (hnames : SearchNames plan.start)
    (hfirst : config.stopOnFirst = true) {pre later : List Planned} {job : Planned}
    (hjobs : plan.remaining.take (plan.loop config world).ran.length = pre ++ job :: later)
    (hjob : (jobTriggering config world job).isSome) : later = [] := by
  have hle : (plan.loop config world).ran.length ≤ plan.remaining.length :=
    (trialLoop config world).ran_length_le _ _
  have hlen := congrArg List.length hjobs
  simp only [List.length_take, List.length_append, List.length_cons] at hlen
  by_contra hne
  have hpos : 0 < later.length := List.length_pos_of_ne_nil hne
  -- the state recorded after the reproduction is not the last one, so it is not stopped
  have hk : pre.length < (plan.loop config world).ran.length := by omega
  set ran := (plan.loop config world).ran[pre.length] with hran
  have hget : (plan.loop config world).ran[pre.length]? = some ran := List.getElem?_eq_getElem hk
  have hok : ran.error = none := by
    refine (trialLoop config world).error_of_mem_dropLast plan.remaining plan.start ran ?_
    refine List.mem_of_getElem? (i := pre.length) ?_
    rw [List.getElem?_dropLast]
    rw [if_pos (by show pre.length < (plan.loop config world).ran.length - 1; omega)]
    exact hget
  obtain ⟨htrace, hsinv⟩ := (plan.loop_inv hinv hnames).1 pre.length ran hget hok
  have hdone : plan.remaining.take (pre.length + 1) = pre ++ [job] := by
    have h1 := congrArg (List.take (pre.length + 1)) hjobs
    rwa [List.take_take, Nat.min_eq_left (by omega), List.append_cons,
      List.take_left' (by simp)] at h1
  have htrig : ran.state.triggering.isSome := by
    rw [htrace.triggering, hdone, List.findSome?_append, List.findSome?_singleton]
    simp [hjob]
  have := plan.length_of_stop hget hok (by rw [hsinv.stop, htrig, hfirst]; rfl)
  omega

/-- When a search returns a triggering config, the winning attempt's dump is
still on disk under its path exactly if no later trial of that name has left
something else there. -/
theorem triggering_kept_iff {disk : Disk} {resume : Option StressResult} {r : StressResult}
    {t : TriggeringConfig} (hresume : ∀ r₀ ∈ resume, Reported r₀)
    (hok : (runStress config world disk resume).outcome = .ok r) (ht : r.triggering = some t) :
    ∃ dump later,
      WonBy config world disk resume
        (trialsLeft (runStress config world disk resume).schedule resume) t dump later ∧
      ((runStress config world disk resume).disk.configs t.configPath = some dump ↔
        KeptBy config world t.configPath dump later) := by
  cases hprep : prepareSearch config world disk resume with
  | error e => simp [runStress, hprep] at hok
  | ok plan =>
    simp only [runStress, hprep, Plan.run] at hok ⊢
    have hnames := prepareSearch_names hprep fun r₀ hr₀ => (hresume r₀ hr₀).names
    have hinv := (prepareSearch_inv hprep).1
    obtain ⟨hstart, -, hleft, hkept, hfile⟩ := prepareSearch_start hprep
    replace hkept := hkept fun r₀ hr₀ => (hresume r₀ hr₀).names
    rw [← hleft]
    split at hok
    · simp at hok
    rename_i herr
    cases hok
    obtain ⟨htrace, hfinal⟩ := (plan.loop_inv hinv hnames).2 herr
    set n := (plan.loop config world).ran.length with hn
    replace ht : (plan.loop config world).final.triggering = some t := ht
    have hname := htrace.names.triggering t ht
    -- unless the search stops at its first reproduction, every trial left has run
    have hall : config.stopOnFirst = false → plan.remaining.take n = plan.remaining := by
      intro hfirst
      refine List.take_of_length_le (le_of_eq ?_)
      refine ((trialLoop config world).ran_length_of_not_stop plan.remaining plan.start herr ?_).symm
      show (plan.loop config world).final.stop = false
      rw [hfinal.stop, hfirst, Bool.and_false]
    have ht' := ht
    rw [htrace.triggering, Option.or_eq_some_iff] at ht'
    rcases ht' with ht' | ⟨hnone, -⟩
    · -- the search was resumed with the triggering config
      obtain ⟨dump, hdump⟩ := Option.ne_none_iff_exists'.mp (hfile t ht')
      rw [hkept _ hname] at hdump
      refine ⟨dump, plan.remaining, .earlier (hstart ▸ ht') hdump, ?_⟩
      rw [htrace.configs _ hname, hkept _ hname, hdump, contentAfter_eq_iff]
      unfold KeptBy
      cases hfirst : config.stopOnFirst with
      | false => simp [hall hfirst]
      | true =>
        have hstop : plan.start.stop = true := by rw [hinv.stop, ht', hfirst]; rfl
        have hzero : n = 0 := by
          rw [hn, Plan.loop, (trialLoop config world).run_of_stop hstop]
          rfl
        simp [hzero, lastWriter]
    · -- it is the first reproduction of this run
      obtain ⟨pre, job, later, hjobs, hjob, hpre⟩ := (htrace.winner hnone).mp ht
      rw [hjobs] at htrace
      obtain ⟨dump, hdump, hcontent⟩ := htrace.content hjob
      have hsplit : plan.remaining = pre ++ job :: (later ++ plan.remaining.drop n) := by
        conv_lhs => rw [← List.take_append_drop n plan.remaining, hjobs]
        simp
      refine ⟨dump, later ++ plan.remaining.drop n, .here (hstart ▸ hnone) hsplit hpre hjob hdump, ?_⟩
      rw [hcontent, contentAfter_eq_iff]
      unfold KeptBy
      cases hfirst : config.stopOnFirst with
      | false =>
        have hnil : plan.remaining.drop n = [] := by
          have := congrArg (List.drop n) (hall hfirst)
          rw [← this, List.drop_take_self]
        simp [hnil]
      | true =>
        have hnil := plan.nothing_after_winner hinv hnames hfirst hjobs (by simp [hjob])
        simp [hnil, lastWriter]

/-! ### A ladder that repeats a delay -/

def onePointDump : Json :=
  .obj [("version", .str "1.0"), ("delay_ns", .int 1000),
    ("kernels", .obj [("k", .obj [("kernel_name", .str "gemm"), ("kernel_checksum", .str "c0"),
      ("instrumentation_points", .obj [("16", .obj [("on", .bool true), ("delay", .int 1000),
        ("pc", .int 16), ("sass", .str "LDS")])])])])]

/-- A random search whose ladder names one delay twice and that goes on after a
reproduction. -/
def repeatedLadder : StressConfig where
  delayLadderNs := [1000, 1000]
  enableProb := 1
  warpgroupIds := []
  attemptsPerDelay := 1
  stopOnFirst := false
  notInterestingExitCodes := []
  kernelFilters := none
  baselineRuns := 0
  outputDir := "/out"
  kernelTimeoutS := 0
  hangIsBug := false
  strategy := .random
  isolateRanks := none
  isolateWarps := none
  delayPatterns := none
  expectedKernelName := none
  expectedKernelChecksum := none
  ladder_ne_nil := nofun
  ladder_pos := by decide
  attempts_pos := attempts_pos_one
  prob_range := prob_range_one
  warpgroups_range := warpgroups_range_nil
  isolate_no_warpgroups := nofun
  random_no_targets := fun _ => ⟨rfl, rfl⟩
  ranks_ne_nil := none_ne_some_nil
  warps_ne_nil := none_ne_some_nil
  warps_range := warps_range_none

/-- Targets that dump one enabled point and return the code of their position. -/
def exitCodes (code : ℕ → ℤ) : World where
  repr _ := ""
  baseline _ := ⟨.completed 1 "" "", none, [], .ok []⟩
  baselineLogFault := none
  attempt i := ⟨.completed (code i) "" "", some (.ok onePointDump), [], .ok [], some "x"⟩
  logFault _ := none

def emptyDisk : Disk := ⟨fun _ => none, fun _ => none⟩


/-- The first trial reproduces, the later ones do not. -/
def winThenClean : World := exitCodes fun i => if i = 0 then 0 else 1

/-- Every trial of a repeated delay reproduces and leaves the same config. -/
theorem triggering_kept_repeated :
    ∃ r t, (runStress repeatedLadder (exitCodes fun _ => 0) emptyDisk none).outcome = .ok r ∧
      r.triggering = some t ∧
      ∃ dump later,
        WonBy repeatedLadder (exitCodes fun _ => 0) emptyDisk none
          (trialsLeft (runStress repeatedLadder (exitCodes fun _ => 0) emptyDisk none).schedule none)
          t dump later ∧
        ((runStress repeatedLadder (exitCodes fun _ => 0) emptyDisk none).disk.configs t.configPath =
            some dump ↔
          KeptBy repeatedLadder (exitCodes fun _ => 0) t.configPath dump later) :=
  ⟨_, _, rfl, rfl, triggering_kept_iff (by simp) rfl rfl⟩

/-- A trial that repeats the winner's delay and does not reproduce deletes the
winning config. -/
theorem triggering_deleted_by_repeated_delay :
    ∃ r t, (runStress repeatedLadder winThenClean emptyDisk none).outcome = .ok r ∧
      r.triggering = some t ∧
      (runStress repeatedLadder winThenClean emptyDisk none).disk.configs t.configPath = none :=
  ⟨_, _, rfl, rfl, rfl⟩

end CuTracer.Stress
