import CuTracer.Stress.Search

/-! What holds whenever the search loop is between two trials: every trial has
been counted exactly once, a triggering config is there exactly if a trial has
reproduced, the log on disk has the recorded size, and the rejected configs are
few and distinct. From this a run can be taken up at any checkpoint. -/

namespace CuTracer.Stress

/-! ### Spec lemmas of the operations -/

theorem appendStressLog_ok {fault : Option LogFault} {log : Option Bytes} {part : String} {size : ℕ}
    (h : (appendStressLog fault log part).2 = .ok size) :
    ∃ bytes, (appendStressLog fault log part).1 = some bytes ∧ size = bytes.length := by
  unfold appendStressLog at h ⊢
  cases log with
  | none => simp at h
  | some old =>
    simp only at h ⊢
    split at h <;> simp_all

theorem startStressLog_ok {fault : Option LogFault} {log : Option Bytes} {part : String} {size : ℕ}
    (h : (startStressLog fault log part).2 = .ok size) :
    ∃ bytes, (startStressLog fault log part).1 = some bytes ∧ size = bytes.length := by
  unfold startStressLog at h ⊢
  split at h <;> simp_all

/-- A write that succeeded leaves a log of the size it reports. -/
theorem writeStressLog_ok {outputDir : String} {fault : Option LogFault} {part : String}
    {append : Bool} {logs logs' : Logs} {path : Path} {size : ℕ}
    (h : writeStressLog outputDir fault part append logs = (logs', .ok (path, size))) :
    ∃ bytes : Bytes, path = stressLogPath outputDir ∧ size = bytes.length ∧
      logs' = Function.update logs (stressLogPath outputDir) (some bytes) := by
  have hwritten : ∀ size,
      (if append then appendStressLog fault (logs (stressLogPath outputDir)) part
        else startStressLog fault (logs (stressLogPath outputDir)) part).2 = .ok size →
      ∃ bytes, (if append then appendStressLog fault (logs (stressLogPath outputDir)) part
        else startStressLog fault (logs (stressLogPath outputDir)) part).1 = some bytes ∧
          size = bytes.length := by
    intro size hsize
    cases append with
    | true => exact appendStressLog_ok hsize
    | false => exact startStressLog_ok hsize
  unfold writeStressLog at h
  obtain ⟨hlogs, hresult⟩ := Prod.mk.inj h
  split at hresult
  · cases hresult
  · rename_i size' hsize
    obtain ⟨rfl, rfl⟩ := Prod.mk.inj (Except.ok.inj hresult)
    obtain ⟨bytes, hlog, hlength⟩ := hwritten size' hsize
    exact ⟨bytes, rfl, hlength, by rw [← hlogs, hlog]⟩

theorem retainOldestAndNewest_sublist {α : Type*} (items : List α) :
    (retainOldestAndNewest items).Sublist items := by
  unfold retainOldestAndNewest
  split_ifs with h
  · exact List.Sublist.refl _
  · have h8 : maxRejectedConfigs / 2 ≤ items.length - (maxRejectedConfigs - maxRejectedConfigs / 2) := by
      simp only [maxRejectedConfigs] at h ⊢
      omega
    have hsub := (List.Sublist.refl (items.take (maxRejectedConfigs / 2))).append
      (List.drop_sublist_drop_left items h8)
    rwa [List.take_append_drop] at hsub

theorem length_retainOldestAndNewest_le {α : Type*} (items : List α) :
    (retainOldestAndNewest items).length ≤ maxRejectedConfigs := by
  unfold retainOldestAndNewest
  split_ifs with h
  · exact h
  · simp only [List.length_append, List.length_take, List.length_drop, maxRejectedConfigs]
    omega

/-- Recording a rejected config keeps the list distinct and bounded. -/
theorem recordRejectedConfig_bounded (ownedRoot : String) {paths : List Path}
    (rejected : Option Path) (configs : Configs) (hnodup : paths.Nodup)
    (hlen : paths.length ≤ maxRejectedConfigs) :
    (recordRejectedConfig ownedRoot paths rejected configs).1.Nodup ∧
      (recordRejectedConfig ownedRoot paths rejected configs).1.length ≤ maxRejectedConfigs := by
  unfold recordRejectedConfig
  split
  · exact ⟨hnodup, hlen⟩
  · split_ifs with hmem
    · exact ⟨hnodup, hlen⟩
    · refine ⟨List.Nodup.sublist (retainOldestAndNewest_sublist _) ?_,
        length_retainOldestAndNewest_le _⟩
      exact hnodup.append (List.nodup_singleton _) (List.disjoint_singleton.mpr hmem)

/-- It lists and removes rejected configs only. -/
theorem recordRejectedConfig_names (ownedRoot : String) {paths : List Path}
    {rejected : Option Path} (configs : Configs) (hpaths : ∀ path ∈ paths, path.IsRejectedConfig)
    (hrejected : ∀ path ∈ rejected, path.IsRejectedConfig) :
    (∀ path ∈ (recordRejectedConfig ownedRoot paths rejected configs).1, path.IsRejectedConfig) ∧
      ∀ path : Path, path.IsAttemptConfig →
        (recordRejectedConfig ownedRoot paths rejected configs).2 path = configs path := by
  unfold recordRejectedConfig
  split
  · exact ⟨hpaths, fun _ _ => rfl⟩
  · rename_i new
    split_ifs with hmem
    · exact ⟨hpaths, fun _ _ => rfl⟩
    · have hall : ∀ path ∈ paths ++ [new], path.IsRejectedConfig := by
        intro path hpath
        rcases List.mem_append.mp hpath with h | h
        · exact hpaths path h
        · exact hrejected path (by simpa [eq_comm] using h)
      refine ⟨fun path hpath => hall path ((retainOldestAndNewest_sublist _).subset hpath), ?_⟩
      intro path hpath
      exact if_neg fun h => hpath.ne (hall path h.1) rfl

/-! ### One trial -/

variable {config : StressConfig}

/-- What an iteration that does not fail has done: the attempt has a verdict, it
is recorded, and the log has grown. -/
theorem runTrial_cases {world : World} {job : Planned} {s s' : SearchState}
    (h : runTrial config world job s = (s', none)) :
    ∃ (verdict : Verdict) (bytes : Bytes),
      attemptVerdict world.repr config job.1 (world.attempt job.2) = .ok verdict ∧
      s' =
        { s.record config (attemptResult config job.1 (world.attempt job.2) verdict)
            (attemptConfigs config job.1 (world.attempt job.2) verdict s.disk.configs) with
          logPath := some (stressLogPath config.outputDir)
          logSize := bytes.length
          disk :=
            { configs := (s.record config (attemptResult config job.1 (world.attempt job.2) verdict)
                (attemptConfigs config job.1 (world.attempt job.2) verdict s.disk.configs)).disk.configs
              logs := Function.update s.disk.logs (stressLogPath config.outputDir) (some bytes) } } := by
  unfold runTrial runAttempt at h
  cases hv : attemptVerdict world.repr config job.1 (world.attempt job.2) with
  | error e => simp [hv] at h
  | ok verdict =>
    simp only [hv, SearchState.writeLog] at h
    split at h
    · simp at h
    · rename_i logs path size hw
      obtain ⟨bytes, rfl, rfl, rfl⟩ := writeStressLog_ok hw
      refine ⟨verdict, bytes, rfl, ?_⟩
      rw [Prod.mk.injEq] at h
      exact h.1.symm

/-! ### The invariant -/

/-- The loop between two trials, with `n` trials counted. -/
structure SearchInv (config : StressConfig) (n : ℕ) (s : SearchState) : Prop where
  attempted : s.attempted = n
  nonneg : 0 ≤ s.completed ∧ 0 ≤ s.reproductions ∧ 0 ≤ s.unattributed ∧ 0 ≤ s.infraErrors ∧
    0 ≤ s.timedOut
  within : s.reproductions + s.unattributed ≤ s.completed
  triggering : s.triggering.isSome ↔ 0 < s.reproductions
  stop : s.stop = (s.triggering.isSome && config.stopOnFirst)
  rejected_nodup : s.rejected.Nodup
  rejected_length : s.rejected.length ≤ maxRejectedConfigs
  log : ∀ path ∈ s.logPath, path = stressLogPath config.outputDir ∧
    ∃ bytes, s.disk.logs path = some bytes ∧ s.logSize = bytes.length

structure SearchNames (s : SearchState) : Prop where
  rejected : ∀ path ∈ s.rejected, path.IsRejectedConfig
  triggering : ∀ t ∈ s.triggering, t.configPath.IsAttemptConfig

/-- The rejected config of an attempt has a name of its own. -/
theorem attemptResult_rejected (config : StressConfig) (trial : Trial) (run : AttemptRun)
    (verdict : Verdict) :
    ∀ path ∈ (attemptResult config trial run verdict).rejectedConfigPath, path.IsRejectedConfig := by
  intro path hpath
  cases verdict with
  | rejected error => exact rejectedConfigPath_isRejectedConfig hpath
  | _ => simp [attemptResult] at hpath

theorem attemptResult_triggering {trial : Trial} {run : AttemptRun} {verdict : Verdict} :
    ∀ t ∈ (attemptResult config trial run verdict).triggering,
      t.configPath = attemptConfigPath config trial := by
  intro t ht
  cases verdict with
  | reproduced n =>
    simp only [attemptResult, Option.mem_some_iff] at ht
    rw [← ht, triggeringConfig]
  | _ => simp [attemptResult] at ht

theorem SearchNames.record {s : SearchState} (h : SearchNames s) (config : StressConfig)
    (job : Planned) (run : AttemptRun) (verdict : Verdict) (configs : Configs) :
    SearchNames (s.record config (attemptResult config job.1 run verdict) configs) where
  rejected := (recordRejectedConfig_names _ _ h.rejected (attemptResult_rejected _ _ _ _)).1
  triggering := by
    intro t ht
    simp only [SearchState.record, Option.mem_def, Option.or_eq_some_iff] at ht
    rcases ht with ht | ⟨-, ht⟩
    · exact h.triggering t ht
    · rw [attemptResult_triggering t ht]
      exact attemptConfigPath_isAttemptConfig config job.1

/-- A trial keeps the names apart, also when it fails. -/
theorem SearchNames.runTrial {s : SearchState} (h : SearchNames s) (config : StressConfig)
    (world : World) (job : Planned) : SearchNames (runTrial config world job s).1 := by
  unfold Stress.runTrial runAttempt
  cases hv : attemptVerdict world.repr config job.1 (world.attempt job.2) with
  | error e => exact ⟨h.rejected, h.triggering⟩
  | ok verdict =>
    have hrec := h.record config job (world.attempt job.2) verdict
      (attemptConfigs config job.1 (world.attempt job.2) verdict s.disk.configs)
    simp only [SearchState.writeLog]
    split
    · exact ⟨hrec.rejected, hrec.triggering⟩
    · exact ⟨hrec.rejected, hrec.triggering⟩

/-- A trial that does not fail advances the invariant by one. -/
theorem SearchInv.runTrial {world : World} {job : Planned} {n : ℕ} {s s' : SearchState}
    (h : SearchInv config n s) (hns : s.stop = false)
    (hs : runTrial config world job s = (s', none)) : SearchInv config (n + 1) s' := by
  obtain ⟨verdict, bytes, -, rfl⟩ := runTrial_cases hs
  have hcounts := attemptResult_counts config job.1 (world.attempt job.2) verdict
  have hrep := attemptResult_triggering_isSome config job.1 (world.attempt job.2) verdict
  have hattempted := h.attempted
  have hnonneg := h.nonneg
  have hwithin := h.within
  have htrig := h.triggering
  have hstop := h.stop
  have hrejected := recordRejectedConfig_bounded config.outputDir
    (attemptResult config job.1 (world.attempt job.2) verdict).rejectedConfigPath
    (attemptConfigs config job.1 (world.attempt job.2) verdict s.disk.configs)
    h.rejected_nodup h.rejected_length
  refine ⟨?_, ?_, ?_, ?_, ?_, hrejected.1, hrejected.2, ?_⟩
  · simp only [SearchState.attempted, SearchState.record] at hattempted ⊢
    omega
  · simp only [SearchState.record]
    omega
  · simp only [SearchState.record]
    omega
  · simp only [SearchState.record, Option.isSome_or, Bool.or_eq_true, htrig, hrep]
    omega
  · have key : ∀ old new first : Bool, false = (old && first) →
        (false || (new && first)) = ((old || new) && first) := by decide
    simp only [SearchState.record, Option.isSome_or]
    rw [hns] at hstop ⊢
    exact key _ _ _ hstop
  · intro path hpath
    simp only [Option.mem_some_iff] at hpath
    subst hpath
    exact ⟨rfl, bytes, by simp, rfl⟩

/-! ### The start of a run -/

theorem fromKeys_nodup {α : Type*} [DecidableEq α] (items : List α) : (fromKeys items).Nodup :=
  List.nodup_reverse.mpr (List.nodup_dedup _)

theorem mem_fromKeys {α : Type*} [DecidableEq α] {x : α} {items : List α} :
    x ∈ fromKeys items ↔ x ∈ items := by
  simp [fromKeys]

/-- A refused count, read the other way: what the checks let pass. -/
theorem countError_eq_none {planned : ℕ} {s : SearchState} (h : countError planned s = none) :
    (0 ≤ s.completed ∧ 0 ≤ s.reproductions ∧ 0 ≤ s.unattributed ∧ 0 ≤ s.infraErrors ∧
      0 ≤ s.timedOut) ∧
    s.reproductions + s.unattributed ≤ s.completed ∧ s.attempted ≤ planned ∧
    (s.triggering.isSome ↔ 0 < s.reproductions) ∧
    ∀ t ∈ s.triggering, s.disk.configs t.configPath ≠ none := by
  unfold countError at h
  split_ifs at h with h1 h2 h3 h4 h5
  refine ⟨by omega, by omega, by omega, ?_, fun t ht hn => h4 ⟨t, ht, hn⟩⟩
  constructor
  · intro ht
    by_contra hr
    exact h3 ⟨ht, by omega⟩
  · intro hr
    by_contra ht
    exact h5 ⟨hr, by simpa using ht⟩

/-- Where the log stands: unset, or at its path with the recorded size. -/
def LogReady (outputDir : String) (logs : Logs) (logPath : Option Path) (logSize : ℤ) : Prop :=
  ∀ path ∈ logPath, path = stressLogPath outputDir ∧
    ∃ bytes, logs path = some bytes ∧ logSize = bytes.length

theorem prepareStressLog_ok {outputDir : String} {resume : Option StressResult} {logs logs' : Logs}
    {logPath : Option Path} {logSize : ℤ}
    (h : prepareStressLog outputDir resume logs = (logs', .ok (logPath, logSize))) :
    LogReady outputDir logs' logPath logSize := by
  unfold prepareStressLog at h
  cases resume with
  | none =>
    simp only [Prod.mk.injEq, Except.ok.injEq] at h
    simp [LogReady, ← h.2.1]
  | some r =>
    simp only at h
    split_ifs at h with h0
    · simp only [Prod.mk.injEq, Except.ok.injEq] at h
      simp [LogReady, ← h.2.1]
    · split at h
      · simp at h
      · split at h
        · simp at h
        · rename_i bytes _
          split_ifs at h with hlen
          · simp at h
          · simp only [Prod.mk.injEq, Except.ok.injEq] at h
            obtain ⟨rfl, rfl, rfl⟩ := h
            intro path hpath
            rw [Option.mem_some_iff] at hpath
            subst hpath
            refine ⟨rfl, _, Function.update_self _ _ _, ?_⟩
            rw [List.length_take]
            omega

theorem logBaseline_ok {world : World} {logs : List String} {s s' : SearchState}
    (h : logBaseline config world logs s = (s', none))
    (hs : LogReady config.outputDir s.disk.logs s.logPath s.logSize) :
    ∃ (logPath : Option Path) (logSize : ℤ) (files : Logs),
      s' = { s with logPath := logPath, logSize := logSize, disk.logs := files } ∧
      LogReady config.outputDir files logPath logSize := by
  unfold logBaseline at h
  split_ifs at h with hnil
  · obtain rfl : s = s' := (Prod.mk.inj h).1
    exact ⟨s.logPath, s.logSize, s.disk.logs, rfl, hs⟩
  · split at h
    · simp at h
    · rename_i files path size hw
      obtain ⟨bytes, rfl, rfl, rfl⟩ := writeStressLog_ok hw
      refine ⟨_, _, _, (Prod.mk.inj h).1.symm, ?_⟩
      intro path hpath
      rw [Option.mem_some_iff] at hpath
      subst hpath
      exact ⟨rfl, bytes, Function.update_self _ _ _, rfl⟩

/-- A run that is not refused: what its plan is made of. -/
theorem prepareSearch_ok {world : World} {disk : Disk} {resume : Option StressResult} {plan : Plan}
    (h : prepareSearch config world disk resume = .ok plan) :
    let bounded := boundedRejectedConfigPaths config.outputDir
      ((resume.map (·.rejectedConfigPaths)).getD []) disk.configs
    ∃ baseline : BaselineResult, baselineResult config world resume = .ok baseline ∧
      planTargets config resume.isSome baseline.geometry = .ok plan.targets ∧
      plan.baseline = baseline.counts ∧ plan.schedule = trialSchedule config plan.targets ∧
      resume.bind (shapeError config plan.targets) = none ∧
      countError plan.schedule.length (startState resume bounded.1 ⟨bounded.2, disk.logs⟩) = none ∧
      ∃ (logPath : Option Path) (logSize : ℤ) (files : Logs),
        LogReady config.outputDir files logPath logSize ∧
        plan.start =
          { startState resume bounded.1 ⟨bounded.2, disk.logs⟩ with
            stop := (startState resume bounded.1 ⟨bounded.2, disk.logs⟩).triggering.isSome &&
              config.stopOnFirst
            logPath := logPath
            logSize := logSize
            disk := ⟨bounded.2, files⟩ } := by
  unfold prepareSearch at h
  cases hb : baselineResult config world resume with
  | error e => simp [hb] at h
  | ok baseline =>
    simp only [hb] at h
    refine ⟨baseline, rfl, ?_⟩
    cases ht : planTargets config resume.isSome baseline.geometry with
    | error e => simp [ht] at h
    | ok targets =>
      simp only [ht] at h
      split at h
      · simp at h
      · rename_i herr
        rw [Option.or_eq_none_iff] at herr
        split at h
        · simp at h
        · rename_i logs logPath logSize hlog
          split at h
          · simp at h
          · rename_i s' hbase
            obtain ⟨logPath', logSize', files, rfl, hready⟩ :=
              logBaseline_ok hbase (prepareStressLog_ok hlog)
            cases h
            refine ⟨rfl, rfl, rfl, herr.1, herr.2, logPath', logSize', files, hready, ?_⟩
            cases resume <;> rfl

/-- Every run that is not refused starts in the invariant, at its position. -/
theorem prepareSearch_inv {world : World} {disk : Disk} {resume : Option StressResult} {plan : Plan}
    (h : prepareSearch config world disk resume = .ok plan) :
    SearchInv config plan.start.attempted.toNat plan.start ∧
      plan.start.attempted ≤ plan.schedule.length := by
  obtain ⟨baseline, -, -, -, -, -, hcount, logPath, logSize, files, hready, hstart⟩ :=
    prepareSearch_ok h
  obtain ⟨hnonneg, hwithin, hplan, htrig, -⟩ := countError_eq_none hcount
  have hattempted : plan.start.attempted = (startState resume
      (boundedRejectedConfigPaths config.outputDir
        ((resume.map (·.rejectedConfigPaths)).getD []) disk.configs).1 ⟨(boundedRejectedConfigPaths
        config.outputDir ((resume.map (·.rejectedConfigPaths)).getD []) disk.configs).2,
        disk.logs⟩).attempted := by rw [hstart]; rfl
  have hrejected : plan.start.rejected = (boundedRejectedConfigPaths config.outputDir
      ((resume.map (·.rejectedConfigPaths)).getD []) disk.configs).1 := by
    rw [hstart]; cases resume <;> rfl
  refine ⟨⟨?_, ?_, ?_, ?_, ?_, ?_, ?_, ?_⟩, ?_⟩
  · have : 0 ≤ plan.start.attempted := by
      rw [hattempted, SearchState.attempted]
      omega
    omega
  · rw [hstart]; exact hnonneg
  · rw [hstart]; exact hwithin
  · rw [hstart]; exact htrig
  · rw [hstart]
  · rw [hrejected]
    exact (fromKeys_nodup _).sublist (retainOldestAndNewest_sublist _)
  · rw [hrejected]
    exact length_retainOldestAndNewest_le _
  · rw [hstart]; exact hready
  · rw [hattempted]; exact hplan

end CuTracer.Stress
