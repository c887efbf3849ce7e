import CuTracer.Stress.Winner

/-! Resuming a search from a progress checkpoint. The state of the loop can be
rebuilt from the checkpoint and the disk, so the resumed run is the rest of the
uninterrupted one, as long as the check that the triggering config is still on
disk lets it start. -/

namespace CuTracer.Stress

variable {config : StressConfig} {world : World}

/-! ### Checkpoints and the loop -/

variable {ran : Loop.Ran Planned SearchState StressError}

theorem checkpoint_isSome {plan : Plan} (h : ran.error = none) :
    (checkpoint config plan ran).isSome := by
  simp [checkpoint, h]

/-- The `k`-th checkpoint of a run comes from its `k`-th trial. -/
theorem checkpoints_getElem? {plan : Plan} {k : ℕ} {cp : Checkpoint}
    (h : (plan.run config world).checkpoints[k]? = some cp) :
    ∃ ran, (plan.loop config world).ran[k]? = some ran ∧ checkpoint config plan ran = some cp := by
  have hget := (trialLoop config world).filterMap_ran_getElem? (checkpoint config plan)
    (fun _ => checkpoint_isSome) plan.remaining plan.start k
  exact Option.bind_eq_some_iff.mp (hget.symm.trans h)

/-- A checkpoint with a log comes from a trial that did not fail. -/
theorem checkpoint_durable {plan : Plan} {cp : Checkpoint}
    (h : checkpoint config plan ran = some cp) (hlog : cp.result.logPath ≠ none) :
    ran.error = none ∧ cp = ⟨progressResult config plan.baseline plan.targets ran.state
      ran.state.logPath, ran.state.disk⟩ := by
  unfold checkpoint at h
  split at h
  · exact ⟨by assumption, (Option.some.inj h).symm⟩
  · cases h
    simp [progressResult] at hlog
  · simp at h

/-! ### Preparing a resumed run -/

/-- A disk whose log holds more than was checkpointed. -/
def Disk.withTail (disk : Disk) (path : Path) (tail : Bytes) : Disk :=
  { disk with logs := Function.update disk.logs path ((disk.logs path).map (· ++ tail)) }

/-- Explicit targets do not depend on the control arm. -/
theorem planTargets_explicit
    (hexplicit : config.strategy = .isolate → explicitTargets config = true) (resumed : Bool)
    (geometry : Option LaunchGeometry) :
    planTargets config resumed geometry = planTargets config false none := by
  unfold planTargets
  cases hs : config.strategy with
  | random => rfl
  | isolate =>
    have he := hexplicit hs
    obtain ⟨hranks, hwarps⟩ := Bool.and_eq_true_iff.mp he
    obtain ⟨ranks, hranks⟩ := Option.isSome_iff_exists.mp hranks
    obtain ⟨warps, hwarps⟩ := Option.isSome_iff_exists.mp hwarps
    simp [isolateTargets, isolateRankList, isolateWarpList, he, hranks, hwarps]

theorem fromKeys_of_nodup {α : Type*} [DecidableEq α] {items : List α} (h : items.Nodup) :
    fromKeys items = items := by
  rw [fromKeys, List.Nodup.dedup (List.nodup_reverse.mpr h), List.reverse_reverse]

theorem boundedRejectedConfigPaths_of_bounded (ownedRoot : String) {paths : List Path}
    (configs : Configs) (hnodup : paths.Nodup) (hlen : paths.length ≤ maxRejectedConfigs) :
    boundedRejectedConfigPaths ownedRoot paths configs = (paths, configs) := by
  have hretained : retainOldestAndNewest paths = paths := if_pos hlen
  simp only [boundedRejectedConfigPaths, fromKeys_of_nodup hnodup, hretained, Prod.mk.injEq, true_and]
  funext path
  exact if_neg fun h => h.2.1 h.1

/-- The log of a checkpoint is cut back to what was checkpointed. -/
theorem prepareStressLog_tail {outputDir : String} {r : StressResult} {logs : Logs} {bytes : Bytes}
    (tail : Bytes)     (hattempted : r.attempted ≠ 0) (hpath : r.logPath = some (stressLogPath outputDir))
    (hsize : r.logSizeBytes = some (bytes.length : ℤ)) (hlog : logs (stressLogPath outputDir) = some bytes) :
    prepareStressLog outputDir (some r)
        (Function.update logs (stressLogPath outputDir) (some (bytes ++ tail))) =
      (logs, .ok (some (stressLogPath outputDir), bytes.length)) := by
  simp only [prepareStressLog, if_neg hattempted, hpath, Function.update_self, hsize,
    Option.getD_some, List.length_append]
  rw [if_neg (by omega)]
  simp [hlog]

/-- The refusal of a run whose triggering config is gone. -/
def configUnavailable : StressError := .valueError "resumed triggering config is unavailable"

theorem countError_of_inv {n planned : ℕ} {s : SearchState} (h : SearchInv config n s)
    (hn : n ≤ planned) :
    countError planned s =
      if ∃ t ∈ s.triggering, s.disk.configs t.configPath = none then some configUnavailable
      else none := by
  have hattempted := h.attempted
  have hnonneg := h.nonneg
  have hwithin := h.within
  have htrig := h.triggering
  have h3 : ¬ (s.triggering.isSome = true ∧ s.reproductions = 0) := by
    rintro ⟨ht, hr⟩
    have := htrig.mp ht
    omega
  have h5 : ¬ (0 < s.reproductions ∧ s.triggering = none) := by
    rintro ⟨hr, ht⟩
    simp [ht] at htrig
    omega
  unfold countError
  rw [if_neg (by omega), if_neg (by omega), if_neg h3, if_neg h5]
  rfl

/-- Preparing from a checkpoint of a fresh run gives back its plan and the state
of the loop, or is refused for want of the triggering config. -/
theorem prepareSearch_resume {disk : Disk} {plan : Plan} {n : ℕ} {s : SearchState} (tail : Bytes)
    (hexplicit : config.strategy = .isolate → explicitTargets config = true)
    (hfresh : prepareSearch config world disk none = .ok plan)
    (hinv : SearchInv config n s) (hn : 0 < n) (hle : n ≤ plan.schedule.length)
    (hlog : s.logPath ≠ none) :
    prepareSearch config world (s.disk.withTail (stressLogPath config.outputDir) tail)
        (some (progressResult config plan.baseline plan.targets s s.logPath)) =
      if ∃ t ∈ s.triggering, s.disk.configs t.configPath = none then
        .error (s.disk.withTail (stressLogPath config.outputDir) tail, configUnavailable)
      else .ok { plan with start := s } := by
  obtain ⟨baseline, -, htargets, hbaseline, hschedule, -⟩ := prepareSearch_ok hfresh
  rw [planTargets_explicit hexplicit] at htargets
  obtain ⟨path, hpath⟩ := Option.ne_none_iff_exists'.mp hlog
  obtain ⟨rfl, bytes, hbytes, hsize⟩ := hinv.log path hpath
  set r := progressResult config plan.baseline plan.targets s s.logPath with hr
  have hattempted : r.attempted ≠ 0 := by
    have : r.attempted = s.attempted := rfl
    rw [this, hinv.attempted]
    omega
  have hshape : shapeError config plan.targets r = none := by simp [shapeError, hr, progressResult]
  have htail : s.disk.withTail (stressLogPath config.outputDir) tail =
      ⟨s.disk.configs,
        Function.update s.disk.logs (stressLogPath config.outputDir) (some (bytes ++ tail))⟩ := by
    simp [Disk.withTail, hbytes]
  rw [htail]
  set disk' : Disk := ⟨s.disk.configs,
    Function.update s.disk.logs (stressLogPath config.outputDir) (some (bytes ++ tail))⟩ with hdisk'
  have hcount : countError (trialSchedule config plan.targets).length
      (startState (some r) s.rejected disk') =
        if ∃ t ∈ s.triggering, s.disk.configs t.configPath = none then some configUnavailable
        else none := by
    have hsame : countError (trialSchedule config plan.targets).length
        (startState (some r) s.rejected disk') = countError plan.schedule.length s := by
      rw [← hschedule]
      rfl
    rw [hsame, countError_of_inv hinv hle]
  have hbounded : boundedRejectedConfigPaths config.outputDir s.rejected disk'.configs =
      (s.rejected, disk'.configs) :=
    boundedRejectedConfigPaths_of_bounded config.outputDir _ hinv.rejected_nodup
      hinv.rejected_length
  have hlogs : prepareStressLog config.outputDir (some r) disk'.logs =
      (s.disk.logs, .ok (some (stressLogPath config.outputDir), (bytes.length : ℤ))) :=
    prepareStressLog_tail tail hattempted hpath (by simp [hr, progressResult, hpath, hsize]) hbytes
  have hrejected : r.rejectedConfigPaths = s.rejected := rfl
  simp only [prepareSearch, baselineResult, resumedBaseline, Option.isSome_some,
    planTargets_explicit hexplicit true none, htargets, Option.map_some, Option.getD_some,
    Option.bind_some, hshape, Option.none_or, hrejected, hbounded, hcount, hlogs, logBaseline]
  split_ifs with hgone
  · rfl
  · have hstart : s =
        { startState (some r) s.rejected disk' with
          logPath := some (stressLogPath config.outputDir)
          logSize := bytes.length
          disk := ⟨s.disk.configs, s.disk.logs⟩
          stop := s.triggering.isSome && config.stopOnFirst } := by
      rw [← hinv.stop, ← hpath, ← hsize]
      rfl
    rw [hstart, ← hschedule]
    rfl

/-! ### A search under way is never refused -/

theorem writeStressLog_error {outputDir : String} {fault : Option LogFault} {part : String}
    {append : Bool} {logs logs' : Logs} {e : StressError}
    (h : writeStressLog outputDir fault part append logs = (logs', .error e)) :
    ∃ message, e = .osError message := by
  have key : ∀ {log : Option Bytes} {e : StressError},
      (appendStressLog fault log part).2 = .error e ∨ (startStressLog fault log part).2 = .error e →
        ∃ message, e = .osError message := by
    intro log e h
    rcases h with h | h
    · unfold appendStressLog at h
      split at h
      · exact ⟨_, (Except.error.inj h).symm⟩
      · simp only at h
        split at h <;> first | exact ⟨_, (Except.error.inj h).symm⟩ | cases h
    · unfold startStressLog at h
      simp only at h
      split at h <;> first | exact ⟨_, (Except.error.inj h).symm⟩ | cases h
  have h2 := congrArg Prod.snd h
  simp only [writeStressLog] at h2
  split at h2
  · rename_i e' he
    cases h2
    cases append with
    | true => exact key (.inl he)
    | false => exact key (.inr he)
  · cases h2

/-- A trial fails because its runner raised or its log could not be written. -/
theorem runTrial_error {job : Planned} {s s' : SearchState} {e : StressError}
    (h : runTrial config world job s = (s', some e)) : ∀ message, e ≠ .valueError message := by
  unfold runTrial runAttempt at h
  cases hv : attemptVerdict world.repr config job.1 (world.attempt job.2) with
  | error e' =>
    simp only [hv, Prod.mk.injEq, Option.some.injEq] at h
    unfold attemptVerdict at hv
    split at hv
    · cases hv
      simp [← h.2]
    · cases hv
    · split_ifs at hv
    · cases hv
  | ok verdict =>
    simp only [hv, SearchState.writeLog] at h
    split at h
    · rename_i logs e' hw
      obtain ⟨message, rfl⟩ := writeStressLog_error hw
      simp only [Prod.mk.injEq, Option.some.injEq] at h
      simp [← h.2]
    · simp at h

theorem Plan.loop_error {plan : Plan} {e : StressError}
    (h : (plan.loop config world).error = some e) : ∀ message, e ≠ .valueError message := by
  obtain ⟨job, s, s', hs⟩ := (trialLoop config world).error_of_run plan.remaining plan.start h
  exact runTrial_error hs

/-! ### Resuming is invisible -/

/-- Stopping `full` after its `k`-th checkpoint and running `resumed` cannot be
told from running on. -/
structure ResumesInvisibly (full resumed : StressRun) (k : ℕ) : Prop where
  outcome : resumed.outcome = full.outcome
  disk : resumed.disk = full.disk
  schedule : resumed.schedule = full.schedule
  launched : full.launched.take (k + 1) ++ resumed.launched = full.launched
  once : (full.launched.take (k + 1) ++ resumed.launched).Nodup
  checkpoints : full.checkpoints.take (k + 1) ++ resumed.checkpoints = full.checkpoints

/-- No trial after the first reproduction has its config name, or the last that
does leaves a config. -/
def WinnerOnDisk (config : StressConfig) (world : World) (jobs : List Planned) : Prop :=
  ∀ pre job later, jobs = pre ++ job :: later →
    (∀ j ∈ pre, jobTriggering config world j = none) → (jobTriggering config world job).isSome →
    ∀ last, lastWriter config (attemptConfigPath config job.1) later = some last →
      jobLeaves config world last ≠ none

theorem contentAfter_eq_none_iff {path : Path} {jobs : List Planned} {dump : Dump} :
    contentAfter config world path jobs (some dump) = none ↔
      ∃ last, lastWriter config path jobs = some last ∧ jobLeaves config world last = none := by
  unfold contentAfter
  cases lastWriter config path jobs <;> simp

/-- Whether the triggering config is on disk, read off the trials. -/
theorem Trace.winnerOnDisk_iff {s₀ s : SearchState} {done : List Planned}
    (h : Trace config world s₀ done s) (h₀ : s₀.triggering = none) :
    WinnerOnDisk config world done ↔
      ¬ ∃ t ∈ s.triggering, s.disk.configs t.configPath = none := by
  constructor
  · rintro hw ⟨t, ht, hnone⟩
    obtain ⟨pre, job, later, rfl, hjob, hpre⟩ := (h.winner h₀).mp ht
    obtain ⟨dump, -, hcontent⟩ := h.content hjob
    rw [hcontent, contentAfter_eq_none_iff] at hnone
    obtain ⟨last, hlast, hleaves⟩ := hnone
    rw [(jobTriggering_some hjob).1] at hlast
    exact hw pre job later rfl hpre (by simp [hjob]) last hlast hleaves
  · intro hdisk pre job later hdone hpre hjob last hlast hleaves
    subst hdone
    obtain ⟨t, ht⟩ := Option.isSome_iff_exists.mp hjob
    obtain ⟨dump, -, hcontent⟩ := h.content ht
    refine hdisk ⟨t, (h.winner h₀).mpr ⟨pre, job, later, rfl, ht, hpre⟩, ?_⟩
    rw [hcontent, contentAfter_eq_none_iff, (jobTriggering_some ht).1]
    exact ⟨last, hlast, hleaves⟩

/-- No position of the schedule runs twice. -/
theorem Plan.launched_nodup (plan : Plan) : (plan.run config world).launched.Nodup := by
  have hitems := congrArg (List.map Prod.snd)
    ((trialLoop config world).ran_items plan.remaining plan.start)
  rw [List.map_map, List.map_take, Plan.remaining, List.map_drop, List.zipIdx_map_snd] at hitems
  have hlaunched : (plan.run config world).launched = _ := hitems
  rw [hlaunched]
  exact List.Nodup.sublist ((List.take_sublist _ _).trans (List.drop_sublist _ _))
    List.nodup_range'

/-- The run from a state recorded by a loop is the rest of the loop. -/
theorem Plan.resume_run {plan : Plan} {k : ℕ} (hran : (plan.loop config world).ran[k]? = some ran)
    (hok : ran.error = none) (hleft : plan.remaining = plan.schedule.zipIdx)
    (hinv : SearchInv config (k + 1) ran.state) :
    ResumesInvisibly (plan.run config world)
      (Plan.run config world { plan with start := ran.state }) k := by
  have hloop : Plan.loop config world { plan with start := ran.state } =
      ⟨(plan.loop config world).final, (plan.loop config world).ran.drop (k + 1),
        (plan.loop config world).error⟩ := by
    have hrest := (trialLoop config world).run_resume plan.remaining hran hok
    have hremaining : Plan.remaining { plan with start := ran.state } =
        plan.remaining.drop (k + 1) := by
      rw [hleft, Plan.remaining, hinv.attempted]
      simp
    rw [Plan.loop, hremaining]
    exact hrest
  have hlaunched : (plan.run config world).launched.take (k + 1) ++
      (Plan.run config world { plan with start := ran.state }).launched =
        (plan.run config world).launched := by
    simp only [Plan.run, hloop, ← List.map_take, ← List.map_append, List.take_append_drop]
  refine ⟨?_, ?_, rfl, hlaunched, ?_, ?_⟩
  · simp only [Plan.run, hloop]
  · simp only [Plan.run, hloop]
  · rw [hlaunched]
    exact plan.launched_nodup
  · have htake := (trialLoop config world).error_of_mem_take plan.remaining plan.start hran hok
    have hdrop := filterMap_drop (f := checkpoint config plan) (k := k + 1) fun r hr =>
      checkpoint_isSome (htake r hr)
    simp only [Plan.run, hloop]
    calc _ = ((plan.loop config world).ran.filterMap (checkpoint config plan)).take (k + 1) ++
          ((plan.loop config world).ran.filterMap (checkpoint config plan)).drop (k + 1) :=
            congrArg _ hdrop
      _ = _ := List.take_append_drop _ _

/-- Resuming from a durable checkpoint, whatever the log holds past it, is
invisible exactly if the triggering config is still on disk there. -/
theorem resume_invisible_iff {disk : Disk} {k : ℕ} {cp : Checkpoint} (tail : Bytes)
    (hexplicit : config.strategy = .isolate → explicitTargets config = true)
    (hcp : (runStress config world disk none).checkpoints[k]? = some cp)
    (hlog : cp.result.logPath ≠ none) :
    ResumesInvisibly (runStress config world disk none)
        (runStress config world (cp.disk.withTail (stressLogPath config.outputDir) tail)
          (some cp.result)) k ↔
      WinnerOnDisk config world
        ((runStress config world disk none).schedule.zipIdx.take (k + 1)) := by
  cases hprep : prepareSearch config world disk none with
  | error e => simp [runStress, hprep] at hcp
  | ok plan =>
    have hfull : runStress config world disk none = plan.run config world := by
      simp [runStress, hprep]
    rw [hfull] at hcp ⊢
    obtain ⟨ran, hran, hcheck⟩ := checkpoints_getElem? hcp
    obtain ⟨hok, rfl⟩ := checkpoint_durable hcheck hlog
    obtain ⟨hstart, hzero, hleft, -, -⟩ := prepareSearch_start hprep
    obtain ⟨hinv, -⟩ := prepareSearch_inv hprep
    obtain ⟨htrace, hsinv⟩ :=
      (plan.loop_inv hinv (prepareSearch_names hprep (by simp))).1 k ran hran hok
    have hleft : plan.remaining = plan.schedule.zipIdx := by simpa [trialsLeft] using hleft
    have hk : k + 1 ≤ plan.schedule.length := by
      have h1 := (trialLoop config world).ran_length_le plan.remaining plan.start
      have h2 : k < (plan.loop config world).ran.length := (List.getElem?_eq_some_iff.mp hran).1
      rw [hleft, List.length_zipIdx, ← hleft] at h1
      exact Nat.lt_of_lt_of_le h2 h1
    have hpos : SearchInv config (k + 1) ran.state := by
      have hlen : (plan.remaining.take (k + 1)).length = k + 1 := by simp [hleft, hk]
      rw [hlen, hzero] at hsinv
      simpa using hsinv
    have hschedule : (plan.run config world).schedule = plan.schedule := rfl
    rw [hschedule, ← hleft, htrace.winnerOnDisk_iff (by simpa using hstart)]
    have hresume := prepareSearch_resume tail hexplicit hprep hpos (Nat.succ_pos k) hk
      (by simpa [progressResult] using hlog)
    by_cases hgone : ∃ t ∈ ran.state.triggering, ran.state.disk.configs t.configPath = none
    · rw [if_pos hgone] at hresume
      refine iff_of_false (fun h => ?_) (not_not_intro hgone)
      have herr := h.outcome
      simp only [runStress, hresume, Plan.run] at herr
      split at herr
      · rename_i e he
        exact plan.loop_error he _ (Except.error.inj herr).symm
      · cases herr
    · rw [if_neg hgone] at hresume
      refine iff_of_true ?_ hgone
      simp only [runStress, hresume]
      exact plan.resume_run hran hok hleft hpos

/-- A search whose first trial reproduced, stopped there with a line of the next
trial's log already written. -/
theorem resume_invisible_repeated :
    ∃ cp,
      (runStress repeatedLadder (exitCodes fun _ => 0) emptyDisk none).checkpoints[0]? = some cp ∧
      (ResumesInvisibly (runStress repeatedLadder (exitCodes fun _ => 0) emptyDisk none)
          (runStress repeatedLadder (exitCodes fun _ => 0)
            (cp.disk.withTail (stressLogPath "/out") [10]) (some cp.result)) 0 ↔
        WinnerOnDisk repeatedLadder (exitCodes fun _ => 0)
          ((runStress repeatedLadder (exitCodes fun _ => 0) emptyDisk none).schedule.zipIdx.take 1)) :=
  ⟨_, rfl, resume_invisible_iff [10] nofun rfl (Option.some_ne_none _)⟩

/-- Once a trial that repeats the winner's delay has deleted the winning config,
the search cannot be resumed. -/
theorem resume_refused_after_repeated_delay :
    ∃ cp r,
      (runStress repeatedLadder winThenClean emptyDisk none).checkpoints[1]? = some cp ∧
      (runStress repeatedLadder winThenClean emptyDisk none).outcome = .ok r ∧
      (runStress repeatedLadder winThenClean cp.disk (some cp.result)).outcome =
        .error configUnavailable :=
  ⟨_, _, rfl, rfl, rfl⟩

end CuTracer.Stress
