import CuTracer.Stress.Progress

/-! What a run has made of the trials it ran: the triggering config is that of
the first reproduction, and each delay config on disk is what the last trial of
its name left. -/

namespace CuTracer.Stress

section

variable (config : StressConfig) (world : World)

/-- The triggering config of a trial, if it reproduces. -/
def jobTriggering (job : Planned) : Option TriggeringConfig :=
  match attemptVerdict world.repr config job.1 (world.attempt job.2) with
  | .ok verdict => (attemptResult config job.1 (world.attempt job.2) verdict).triggering
  | .error _ => none

/-- What a trial leaves under its own config name. -/
def jobLeaves (job : Planned) : Option Dump :=
  match attemptVerdict world.repr config job.1 (world.attempt job.2) with
  | .ok verdict => attemptLeaves config job.1 (world.attempt job.2) verdict
  | .error _ => (world.attempt job.2).dump

def lastWriter (path : Path) (jobs : List Planned) : Option Planned :=
  (jobs.filter fun job => path = attemptConfigPath config job.1).getLast?

/-- The config at a path after the trials, if it was `content` before them. -/
def contentAfter (path : Path) (jobs : List Planned) (content : Option Dump) : Option Dump :=
  match lastWriter config path jobs with
  | some job => jobLeaves config world job
  | none => content

theorem lastWriter_concat (path : Path) (jobs : List Planned) (job : Planned) :
    lastWriter config path (jobs ++ [job]) =
      if path = attemptConfigPath config job.1 then some job else lastWriter config path jobs := by
  unfold lastWriter
  split_ifs with h <;> simp [List.filter_append, h]

/-- A trial later than the winner decides, else the winner itself. -/
theorem lastWriter_append_cons (pre later : List Planned) (job : Planned) :
    lastWriter config (attemptConfigPath config job.1) (pre ++ job :: later) =
      (lastWriter config (attemptConfigPath config job.1) later).or (some job) := by
  unfold lastWriter
  rw [List.filter_append, List.filter_cons_of_pos (by simp), List.getLast?_append,
    List.getLast?_cons]
  cases (later.filter fun j =>
    decide (attemptConfigPath config job.1 = attemptConfigPath config j.1)).getLast? <;> simp

/-- The trials `done` lead from the state `s₀` to the state `s`. -/
structure Trace (s₀ : SearchState) (done : List Planned) (s : SearchState) : Prop where
  names : SearchNames s
  triggering : s.triggering = s₀.triggering.or (done.findSome? (jobTriggering config world))
  configs : ∀ path : Path, path.IsAttemptConfig →
    s.disk.configs path = contentAfter config world path done (s₀.disk.configs path)

end

variable {config : StressConfig} {world : World}

theorem Trace.refl {s : SearchState} (h : SearchNames s) : Trace config world s [] s where
  names := h
  triggering := by simp
  configs _ _ := rfl

theorem Trace.runTrial {s₀ s s' : SearchState} {done : List Planned} {job : Planned}
    (h : Trace config world s₀ done s) (hs : runTrial config world job s = (s', none)) :
    Trace config world s₀ (done ++ [job]) s' := by
  have hnames := h.names.runTrial config world job
  rw [hs] at hnames
  obtain ⟨verdict, bytes, hv, rfl⟩ := runTrial_cases hs
  refine ⟨hnames, ?_, ?_⟩
  · have hjob : jobTriggering config world job =
        (attemptResult config job.1 (world.attempt job.2) verdict).triggering := by
      simp [jobTriggering, hv]
    simp only [SearchState.record, h.triggering, List.findSome?_append, List.findSome?_singleton,
      hjob, Option.or_assoc]
  · intro path hpath
    have hleaves : jobLeaves config world job =
        attemptLeaves config job.1 (world.attempt job.2) verdict := by simp [jobLeaves, hv]
    have hrec := (recordRejectedConfig_names config.outputDir
      (attemptConfigs config job.1 (world.attempt job.2) verdict s.disk.configs)
      h.names.rejected (attemptResult_rejected config job.1 (world.attempt job.2) verdict)).2 path hpath
    simp only [SearchState.record]
    rw [hrec, attemptConfigs_apply config job.1 _ verdict s.disk.configs hpath, h.configs path hpath,
      contentAfter, contentAfter, lastWriter_concat]
    split_ifs
    · simp [hleaves]
    · rfl

/-- What a reproducing trial records and leaves. -/
theorem jobTriggering_some {job : Planned} {t : TriggeringConfig}
    (h : jobTriggering config world job = some t) :
    t.configPath = attemptConfigPath config job.1 ∧
      ∃ dump, (world.attempt job.2).dump = some dump ∧ jobLeaves config world job = some dump := by
  unfold jobTriggering at h
  split at h
  · rename_i verdict hv
    refine ⟨attemptResult_triggering t h, ?_⟩
    cases verdict with
    | reproduced n =>
      obtain ⟨dump, hdump⟩ := Option.isSome_iff_exists.mp (dump_of_reproduced hv)
      exact ⟨dump, hdump, by simp [jobLeaves, hv, attemptLeaves, hdump]⟩
    | _ => simp [attemptResult] at h
  · simp at h

/-- What is left of the config of a trial that reproduced, which the later trials
decide. -/
theorem Trace.content {s₀ s : SearchState} {pre later : List Planned} {job : Planned}
    {t : TriggeringConfig} (h : Trace config world s₀ (pre ++ job :: later) s)
    (hjob : jobTriggering config world job = some t) :
    ∃ dump, (world.attempt job.2).dump = some dump ∧
      s.disk.configs t.configPath = contentAfter config world t.configPath later (some dump) := by
  obtain ⟨hpath, dump, hdump, hleaves⟩ := jobTriggering_some hjob
  refine ⟨dump, hdump, ?_⟩
  rw [hpath, h.configs _ (attemptConfigPath_isAttemptConfig config job.1), contentAfter, contentAfter,
    lastWriter_append_cons]
  cases lastWriter config (attemptConfigPath config job.1) later <;> simp [hleaves]

/-- A triggering config found by the trials is that of the first that reproduces. -/
theorem Trace.winner {s₀ s : SearchState} {done : List Planned} {t : TriggeringConfig}
    (h : Trace config world s₀ done s) (h₀ : s₀.triggering = none) :
    s.triggering = some t ↔
      ∃ (pre : List Planned) (job : Planned) (later : List Planned),
        done = pre ++ job :: later ∧ jobTriggering config world job = some t ∧
        ∀ j ∈ pre, jobTriggering config world j = none := by
  rw [h.triggering, h₀, Option.none_or, List.findSome?_eq_some_iff]

/-- The invariant of a planned run after the trials `done`. -/
structure RunInv (config : StressConfig) (world : World) (plan : Plan) (done : List Planned)
    (s : SearchState) : Prop where
  trace : Trace config world plan.start done s
  inv : SearchInv config (plan.start.attempted.toNat + done.length) s

/-- Every state a planned run records, and the one it ends in, satisfies the
invariant for the trials run so far. -/
theorem Plan.loop_inv {plan : Plan} (hinv : SearchInv config plan.start.attempted.toNat plan.start)
    (hnames : SearchNames plan.start) :
    (∀ k ran, (plan.loop config world).ran[k]? = some ran → ran.error = none →
      RunInv config world plan (plan.remaining.take (k + 1)) ran.state) ∧
    ((plan.loop config world).error = none →
      RunInv config world plan (plan.remaining.take (plan.loop config world).ran.length)
        (plan.loop config world).final) := by
  have hstep : ∀ done job s s', RunInv config world plan done s →
      (trialLoop config world).stop s = false →
      (trialLoop config world).step job s = (s', none) →
      RunInv config world plan (done ++ [job]) s' := by
    intro done job s s' h hns hs
    refine ⟨h.trace.runTrial hs, ?_⟩
    rw [List.length_append, List.length_singleton, ← Nat.add_assoc]
    exact h.inv.runTrial hns hs
  have hstart : RunInv config world plan [] plan.start := ⟨.refl hnames, by simpa using hinv⟩
  exact (trialLoop config world).run_invariant hstep plan.remaining hstart

/-! ### Results that runs report -/

/-- A result that some chain of runs, each but the first resumed from a result
of the one before, has reported. -/
inductive Reported : StressResult → Prop where
  | fresh {config : StressConfig} {world : World} {disk : Disk} {r : StressResult} :
      (runStress config world disk none).Reports r → Reported r
  | resumed {config : StressConfig} {world : World} {disk : Disk} {r₀ r : StressResult} :
      Reported r₀ → (runStress config world disk (some r₀)).Reports r → Reported r

def ResultNames (r : StressResult) : Prop :=
  (∀ path ∈ r.rejectedConfigPaths, path.IsRejectedConfig) ∧
    ∀ t ∈ r.triggering, t.configPath.IsAttemptConfig

theorem prepareSearch_names {disk : Disk} {resume : Option StressResult} {plan : Plan}
    (h : prepareSearch config world disk resume = .ok plan)
    (hresume : ∀ r ∈ resume, ResultNames r) : SearchNames plan.start := by
  obtain ⟨-, -, -, -, -, -, -, logPath, logSize, files, -, hstart⟩ := prepareSearch_ok h
  rw [hstart]
  cases resume with
  | none => exact ⟨by simp [startState, boundedRejectedConfigPaths, fromKeys, retainOldestAndNewest],
      by simp [startState]⟩
  | some r =>
    obtain ⟨hrejected, htrig⟩ := hresume r rfl
    refine ⟨fun path hpath => hrejected path ?_, htrig⟩
    exact mem_fromKeys.mp ((retainOldestAndNewest_sublist _).subset hpath)

theorem reports_cases {disk : Disk} {resume : Option StressResult} {r : StressResult}
    (h : (runStress config world disk resume).Reports r) :
    ∃ plan, prepareSearch config world disk resume = .ok plan ∧
      ∃ s logPath, r = progressResult config plan.baseline plan.targets s logPath ∧
        (s = (plan.loop config world).final ∨ ∃ ran ∈ (plan.loop config world).ran, s = ran.state) := by
  unfold runStress at h
  split at h
  · rcases h with h | ⟨cp, hcp, -⟩
    · simp at h
    · simp at hcp
  · rename_i plan hplan
    refine ⟨plan, hplan, ?_⟩
    rcases h with h | ⟨cp, hcp, rfl⟩
    · simp only [Plan.run] at h
      split at h
      · simp at h
      · exact ⟨_, _, (Except.ok.inj h).symm, .inl rfl⟩
    · simp only [Plan.run, List.mem_filterMap] at hcp
      obtain ⟨ran, hran, hcp⟩ := hcp
      unfold checkpoint at hcp
      split at hcp
      · cases hcp
        exact ⟨_, _, rfl, .inr ⟨ran, hran, rfl⟩⟩
      · cases hcp
        exact ⟨_, _, rfl, .inr ⟨ran, hran, rfl⟩⟩
      · simp at hcp

theorem reports_names {disk : Disk} {resume : Option StressResult} {r : StressResult}
    (h : (runStress config world disk resume).Reports r)
    (hresume : ∀ r ∈ resume, ResultNames r) : ResultNames r := by
  obtain ⟨plan, hplan, s, logPath, rfl, hs⟩ := reports_cases h
  obtain ⟨hran, hfinal⟩ := (trialLoop config world).ran_invariant
    (fun job s h _ => h.runTrial config world job) plan.remaining (prepareSearch_names hplan hresume)
  have hnames : SearchNames s := by
    rcases hs with rfl | ⟨ran, hmem, rfl⟩
    · exact hfinal
    · exact hran ran hmem
  exact ⟨hnames.rejected, hnames.triggering⟩

theorem Reported.names {r : StressResult} (h : Reported r) : ResultNames r := by
  induction h with
  | fresh hr => exact reports_names hr (by simp)
  | resumed _ hr ih => exact reports_names hr (by simpa using ih)

end CuTracer.Stress
