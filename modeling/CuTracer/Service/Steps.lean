import CuTracer.Service.Known
import CuTracer.Service.Lifecycle

/-! What one command can do to a session. Its effects are those that a driver finds when it
resumes the session that follows, and a command that a callback tells of changes the session. -/

namespace CuTracer.Service

deriving instance DecidableEq for CrossValidation, ExplainReport, ExperimentRequest, AnalysisDecision,
  TriageDecision, SessionBudget, AnalysisTurn, EvidenceBundle, AnalysisSession

/-- A session as it is stored, with the snapshot of its triage decision. -/
structure Stored where
  session : AnalysisSession
  snapshot : Option TriageSnapshot
  revision : ℕ

/-- The baselines that `record_published_baselines` records, in their order. -/
def publishedBaselines (policy : TriagePolicy) (stored : Stored) : List ScopeBaseline :=
  if policy.baselines && policy.recordBaselines && stored.session.delivered then
    match policy.today, stored.snapshot with
    | some today, some snapshot => snapshot.scopes.filterMap fun s =>
        s.baseline stored.session.unit.sourceRevision today
    | _, _ => []
  else []

/-- `TriagePolicy()`. -/
def TriagePolicy.default : TriagePolicy := ⟨false, none, none, true, fun _ h => nomatch h⟩

def resumeSession (session : AnalysisSession) : Transition :=
  match session.status with
  | .waitingInitial | .waitingFollowup => ⟨session, [.submitExperiments session.pendingExperiments]⟩
  | .waitingTriage => ⟨session, [.runTriage]⟩
  | .waitingReasoner => ⟨session, [.runReasoner]⟩
  | .waitingChildren => ⟨session, [.createChildSessions]⟩
  | .completed | .inconclusive | .failed =>
    if session.reportPublication = .pending then ⟨session, [.publishReport]⟩ else ⟨session, []⟩

/-- What `build_session_report` raises. -/
def checkReportable (session : AnalysisSession) : Check := do
  raiseIf session.report.isNone "session has no terminal report" []
  raiseIf (!session.status.reported) "session is not terminal: %s" [session.status.value]

variable {h : Hashes} {guard : ExperimentGuardPolicy} {s s' : AnalysisSession} {t : Transition}

/-! ### Decisions -/

variable {decision : AnalysisDecision}

variable (ht : recordAnalysisDecision h guard s decision = .ok t)

theorem finished_effects (u : AnalysisSession) {status : SessionStatus} (report : ExplainReport)
    (reason : String) (hstatus : status.reported = true) :
    (finished u status report reason).effects =
      (resumeSession (finished u status report reason).session).effects := by
  cases status <;> first | rfl | exact nomatch hstatus

include ht in
theorem analysisDecision_effects : t.effects = (resumeSession t.session).effects := by
  obtain ⟨-, u, -, ⟨status, report, reason, hstatus, -, -, rfl⟩ | ⟨guarded, -, rfl⟩⟩ :=
    analysisDecision_cases ht
  · exact finished_effects u report reason hstatus
  · rfl

include ht in
theorem analysisDecision_turns : t.session.turns.length = s.turns.length + 1 := by
  obtain ⟨-, u, hu, ⟨status, report, reason, -, -, -, rfl⟩ | ⟨guarded, -, rfl⟩⟩ := analysisDecision_cases ht
  · exact hu.length_turns
  · exact hu.length_turns

include ht in
theorem analysisDecision_completedIds :
    t.session.completedExperimentIds = s.completedExperimentIds := by
  obtain ⟨-, u, hu, ⟨status, report, reason, -, -, -, rfl⟩ | ⟨guarded, -, rfl⟩⟩ := analysisDecision_cases ht
  · rw [finished, hu.eq]
  · rw [startFollowup, hu.eq]

theorem triageDecision_effects {decision : TriageDecision} (ht : recordTriageDecision s decision = .ok t) :
    t.effects = (resumeSession t.session).effects := by
  obtain ⟨-, ⟨status, report, hstatus, -, rfl⟩ | ⟨-, rfl⟩⟩ := triageDecision_cases ht
  · exact finished_effects _ report decision.reason hstatus
  · rfl

/-! ### Results -/

/-- What a session continues with: itself while something is pending, else the next status. -/
theorem continueSession_effects {phase : ExperimentPhase} (ht : continueSession s phase = .ok t) :
    t = ⟨s, []⟩ ∧ s.pendingExperiments ≠ [] ∨
      t.effects = (resumeSession t.session).effects ∨
      t.effects = [] ∧ t.session.status = .failed := by
  obtain ⟨hne, rfl⟩ | ⟨-, status, reason, effects, hnext, rfl⟩ := continueSession_cases ht
  · exact Or.inl ⟨rfl, hne⟩
  · cases hnext with
    | failed => exact Or.inr (Or.inr ⟨rfl, rfl⟩)
    | _ => exact Or.inr (Or.inl rfl)

variable {result : ExperimentResult}

theorem experimentResult_effects (ht : recordExperimentResult s result = .ok t) :
    t.effects = [] ∨ t.effects = (resumeSession t.session).effects := by
  rcases experimentResult_cases ht with ⟨-, rfl⟩ | ⟨spec, -, ht⟩
  · exact Or.inl rfl
  · rcases continueSession_effects ht with ⟨rfl, -⟩ | heffects | ⟨heffects, -⟩
    · exact Or.inl rfl
    · exact Or.inr heffects
    · exact Or.inl heffects

theorem continueSession_completed {phase : ExperimentPhase} (ht : continueSession s phase = .ok t) :
    t.session.completedExperimentIds = s.completedExperimentIds := by
  obtain ⟨-, rfl⟩ | ⟨-, status, reason, effects, -, rfl⟩ := continueSession_cases ht <;> rfl

theorem experimentResult_new (ht : recordExperimentResult s result = .ok t)
    (hnew : result.experimentId ∉ s.completedExperimentIds) :
    ∃ spec, Accepted s result spec ∧
      continueSession (acceptResult s spec result) spec.phase = .ok t :=
  (experimentResult_cases ht).resolve_left fun hold => hnew hold.1

theorem experimentResult_completed (ht : recordExperimentResult s result = .ok t)
    (hnew : result.experimentId ∉ s.completedExperimentIds) :
    t.session.completedExperimentIds = s.completedExperimentIds ++ [result.experimentId] := by
  obtain ⟨spec, -, ht⟩ := experimentResult_new ht hnew
  rw [continueSession_completed ht]
  rfl

/-! ### Commands -/

variable {c : Command}

/-- A command asks for nothing, or for what the session it leads to asks for. -/
theorem step_effects (ht : step h guard s c = .ok t) :
    t.effects = [] ∨ t.effects = (resumeSession t.session).effects := by
  cases c with
  | experimentResult result => exact experimentResult_effects ht
  | triageDecision decision => exact Or.inr (triageDecision_effects ht)
  | analysisDecision decision => exact Or.inr (analysisDecision_effects ht)
  | discoveryChildrenStarted ids =>
    refine Or.inl ?_
    rcases discoveryChildrenStarted_cases ht with rfl | ⟨-, reason, rfl⟩ <;> rfl
  | infrastructureFailure reason =>
    refine Or.inl ?_
    rcases infrastructureFailure_cases ht with ⟨-, rfl⟩ | ⟨-, rfl⟩ <;> rfl
  | reportPublished artifact =>
    refine Or.inl ?_
    obtain ⟨-, ⟨-, rfl⟩ | ⟨-, rfl⟩⟩ := reportPublished_cases ht <;> rfl
  | reportPublicationFailed reason =>
    refine Or.inl ?_
    obtain ⟨-, ⟨-, rfl⟩ | ⟨-, rfl⟩⟩ := reportPublicationFailed_cases ht <;> rfl

theorem resumeSession_single (s : AnalysisSession) : (resumeSession s).effects.length ≤ 1 := by
  unfold resumeSession
  split <;> try exact Nat.le_refl 1
  all_goals
    split
    · exact Nat.le_refl 1
    · exact Nat.zero_le 1

theorem step_single (ht : step h guard s c = .ok t) : t.effects.length ≤ 1 := by
  rcases step_effects ht with heffects | heffects
  · rw [heffects]
    exact Nat.zero_le 1
  · rw [heffects]
    exact resumeSession_single t.session

/-- What is completed stays completed, and only a result completes. -/
theorem step_completedIds (ht : step h guard s c = .ok t) :
    t.session.completedExperimentIds = s.completedExperimentIds ∨
      ∃ result, c = .experimentResult result ∧ result.experimentId ∉ s.completedExperimentIds ∧
        t.session.completedExperimentIds = s.completedExperimentIds ++ [result.experimentId] := by
  cases c with
  | experimentResult result =>
    by_cases hnew : result.experimentId ∈ s.completedExperimentIds
    · refine Or.inl ?_
      rcases experimentResult_cases ht with ⟨-, rfl⟩ | ⟨spec, hacc, -⟩
      · rfl
      · exact absurd hnew hacc.new
    · exact Or.inr ⟨result, rfl, hnew, experimentResult_completed ht hnew⟩
  | triageDecision decision =>
    refine Or.inl ?_
    obtain ⟨-, ⟨status, report, -, -, rfl⟩ | ⟨-, rfl⟩⟩ := triageDecision_cases ht <;> rfl
  | analysisDecision decision => exact Or.inl (analysisDecision_completedIds ht)
  | discoveryChildrenStarted ids =>
    refine Or.inl ?_
    rcases discoveryChildrenStarted_cases ht with rfl | ⟨-, reason, rfl⟩ <;> rfl
  | infrastructureFailure reason =>
    refine Or.inl ?_
    rcases infrastructureFailure_cases ht with ⟨-, rfl⟩ | ⟨-, rfl⟩ <;> rfl
  | reportPublished artifact =>
    refine Or.inl ?_
    obtain ⟨-, ⟨-, rfl⟩ | ⟨-, rfl⟩⟩ := reportPublished_cases ht <;> rfl
  | reportPublicationFailed reason =>
    refine Or.inl ?_
    obtain ⟨-, ⟨-, rfl⟩ | ⟨-, rfl⟩⟩ := reportPublicationFailed_cases ht <;> rfl

/-! ### Publication -/

/-- Only a report that a session ended with is published. -/
def Publishing (s : AnalysisSession) : Prop := s.reportPublication ≠ .notReady → s.status.reported = true

theorem Publishing.notReady (hs : Publishing s) (hstatus : s.status.reported = false) :
    s.reportPublication = .notReady := by
  by_contra hready
  rw [hs hready] at hstatus
  exact nomatch hstatus

theorem reported_of_terminal {status : SessionStatus} (hterminal : status.terminal = false) :
    status.reported = false := by
  cases status <;> first | rfl | exact nomatch hterminal

theorem experimentResult_publishing (hs : Publishing s)
    (ht : recordExperimentResult s result = .ok t) : Publishing t.session := by
  rcases experimentResult_cases ht with ⟨-, rfl⟩ | ⟨spec, hacc, ht⟩
  · exact hs
  · have hnot := hs.notReady (Bool.eq_false_iff.mpr hacc.waiting)
    intro hready
    obtain ⟨-, rfl⟩ | ⟨-, status, reason, effects, -, rfl⟩ := continueSession_cases ht <;> exact absurd hnot hready

theorem infrastructureFailure_publishing {reason : String} (hs : Publishing s)
    (ht : recordInfrastructureFailure s reason = .ok t) : Publishing t.session := by
  rcases infrastructureFailure_cases ht with ⟨-, rfl⟩ | ⟨hterminal, rfl⟩
  · exact hs
  · exact fun hready => absurd (hs.notReady (reported_of_terminal hterminal)) hready

/-- What a command does to the publication of a report. -/
theorem step_publication (ht : step h guard s c = .ok t) :
    t = ⟨s, []⟩ ∨
      (s.status.reported = false ∧ (t.session.reportPublication = s.reportPublication ∨
        t.session.reportPublication = .pending ∧ t.session.status.reported = true)) ∨
      (s.status.reported = true ∧ t.session.status = s.status ∧ s.reportPublication = .pending ∧
        ((∃ artifact, c = .reportPublished artifact ∧ t.session.reportPublication = .published) ∨
          t.session.reportPublication = .failed)) := by
  cases c with
  | experimentResult result =>
    rcases experimentResult_cases ht with ⟨-, rfl⟩ | ⟨spec, hacc, ht⟩
    · exact Or.inl rfl
    · refine Or.inr (Or.inl ⟨?_, Or.inl ?_⟩)
      · exact Bool.eq_false_iff.mpr hacc.waiting
      · obtain ⟨-, rfl⟩ | ⟨-, status, reason, effects, -, rfl⟩ := continueSession_cases ht <;> rfl
  | triageDecision decision =>
    obtain ⟨hstatus, ⟨status, report, hreported, -, rfl⟩ | ⟨-, rfl⟩⟩ := triageDecision_cases ht
    · exact Or.inr (Or.inl ⟨by rw [hstatus]; rfl, Or.inr ⟨rfl, hreported⟩⟩)
    · exact Or.inr (Or.inl ⟨by rw [hstatus]; rfl, Or.inl rfl⟩)
  | analysisDecision decision =>
    obtain ⟨hstatus, u, hu, ⟨status, report, reason, hreported, -, -, rfl⟩ | ⟨guarded, -, rfl⟩⟩ :=
      analysisDecision_cases ht
    · exact Or.inr (Or.inl ⟨by rw [hstatus]; rfl, Or.inr ⟨rfl, hreported⟩⟩)
    · refine Or.inr (Or.inl ⟨by rw [hstatus]; rfl, Or.inl ?_⟩)
      rw [startFollowup, hu.eq]
  | discoveryChildrenStarted ids =>
    rcases discoveryChildrenStarted_cases ht with rfl | ⟨hstatus, reason, rfl⟩
    · exact Or.inl rfl
    · exact Or.inr (Or.inl ⟨by rw [hstatus]; rfl, Or.inl rfl⟩)
  | infrastructureFailure reason =>
    rcases infrastructureFailure_cases ht with ⟨-, rfl⟩ | ⟨hopen, rfl⟩
    · exact Or.inl rfl
    · exact Or.inr (Or.inl ⟨reported_of_terminal hopen, Or.inl rfl⟩)
  | reportPublished artifact =>
    obtain ⟨hreported, ⟨-, rfl⟩ | ⟨hpending, rfl⟩⟩ := reportPublished_cases ht
    · exact Or.inl rfl
    · exact Or.inr (Or.inr ⟨hreported, rfl, hpending, Or.inl ⟨artifact, rfl, rfl⟩⟩)
  | reportPublicationFailed reason =>
    obtain ⟨hreported, ⟨-, rfl⟩ | ⟨hpending, rfl⟩⟩ := reportPublicationFailed_cases ht
    · exact Or.inl rfl
    · exact Or.inr (Or.inr ⟨hreported, rfl, hpending, Or.inr rfl⟩)

theorem step_publishing (hs : Publishing s) (ht : step h guard s c = .ok t) :
    Publishing t.session := by
  rcases step_publication ht with rfl | ⟨hopen, hsame | ⟨-, hreported⟩⟩ | ⟨hreported, hstatus, -⟩
  · exact hs
  · rw [Publishing, hsame, hs.notReady hopen]
    exact fun hready => absurd rfl hready
  · exact fun _ => hreported
  · exact fun _ => hstatus ▸ hreported

/-- Only the command that says so publishes a report. -/
theorem step_published (hs : Publishing s) (ht : step h guard s c = .ok t)
    (hpublished : t.session.reportPublication = .published) :
    t = ⟨s, []⟩ ∨ s.reportPublication = .pending ∧ ∃ artifact, c = .reportPublished artifact := by
  rcases step_publication ht with hsame | ⟨hopen, hsame | ⟨hpending, -⟩⟩ |
      ⟨-, -, hpending, ⟨artifact, hc, -⟩ | hfailed⟩
  · exact Or.inl hsame
  · rw [hsame, hs.notReady hopen] at hpublished
    exact nomatch hpublished
  · rw [hpending] at hpublished
    exact nomatch hpublished
  · exact Or.inr ⟨hpending, artifact, hc⟩
  · rw [hfailed] at hpublished
    exact nomatch hpublished

/-- A report that is published, or not, stays so. -/
theorem step_reported (hreported : s.status.reported = true) (ht : step h guard s c = .ok t) :
    t = ⟨s, []⟩ ∨
      s.reportPublication = .pending ∧ t.session.status.reported = true ∧
        t.session.reportPublication ≠ .pending := by
  rcases step_publication ht with hsame | ⟨hopen, -⟩ | ⟨-, hstatus, hpending, hafter⟩
  · exact Or.inl hsame
  · rw [hreported] at hopen
    exact nomatch hopen
  · refine Or.inr ⟨hpending, hstatus ▸ hreported, ?_⟩
    rcases hafter with ⟨-, -, hafter⟩ | hafter <;>
      · rw [hafter]
        exact nofun

theorem created_publishing (hcreated : Created h s) : Publishing s := by
  rcases (created_new hcreated).2 with hnot | ⟨-, hreported⟩
  · exact fun hready => absurd hnot hready
  · exact fun _ => hreported

theorem created_not_published (hcreated : Created h s) : s.reportPublication ≠ .published := by
  rcases (created_new hcreated).2 with hnot | ⟨hpending, -⟩
  · rw [hnot]
    exact nofun
  · rw [hpending]
    exact nofun

theorem reachable_publishing (hs : Reachable h guard s) : Publishing s := by
  induction hs with
  | session create => exact created_publishing (.session create)
  | discovery create => exact created_publishing (.discovery create)
  | step _ accepted ih => exact step_publishing ih accepted

/-! ### Resuming -/

/-- A session that failed has nothing left to do. -/
theorem resumeSession_failed (hs : Publishing s) (hstatus : s.status = .failed) :
    (resumeSession s).effects = [] := by
  have hnot := hs.notReady (by rw [hstatus]; rfl)
  rw [resumeSession, hstatus]
  simp only [hnot]
  rfl

/-- A session whose report is not to be published any more has nothing left to do. -/
theorem resumeSession_reported (hstatus : s.status.reported = true)
    (hpublication : s.reportPublication ≠ .pending) : (resumeSession s).effects = [] := by
  have hcases : s.status = .completed ∨ s.status = .inconclusive := by
    generalize s.status = status at hstatus
    cases status <;> simp_all [SessionStatus.reported]
  unfold resumeSession
  rcases hcases with h | h <;>
    · rw [h]
      dsimp only
      rw [if_neg hpublication]

theorem infrastructureFailure_effects {reason : String} (hs : Publishing s)
    (hterminal : s.status.terminal = false) (ht : recordInfrastructureFailure s reason = .ok t) :
    t.effects = (resumeSession t.session).effects := by
  have hpublishing := infrastructureFailure_publishing hs ht
  rcases infrastructureFailure_cases ht with ⟨htrue, -⟩ | ⟨-, rfl⟩
  · rw [htrue] at hterminal
    exact nomatch hterminal
  · exact (resumeSession_failed hpublishing rfl).symm

theorem reportPublished_effects {artifact : Option ArtifactRef} (ht : recordReportPublished s artifact = .ok t) :
    t.effects = (resumeSession t.session).effects := by
  obtain ⟨hreported, ⟨hpublished, rfl⟩ | ⟨-, rfl⟩⟩ := reportPublished_cases ht
  · exact (resumeSession_reported hreported (by simp [hpublished])).symm
  · refine Eq.symm (resumeSession_reported ?_ ?_)
    · exact hreported
    · simp

theorem reportPublicationFailed_effects {reason : String} (ht : recordReportPublicationFailed s reason = .ok t) :
    t.effects = (resumeSession t.session).effects := by
  obtain ⟨hreported, ⟨hfailed, rfl⟩ | ⟨-, rfl⟩⟩ := reportPublicationFailed_cases ht
  · exact (resumeSession_reported hreported (by simp [hfailed])).symm
  · refine Eq.symm (resumeSession_reported ?_ ?_)
    · exact hreported
    · simp

theorem experimentResult_last (hs : Publishing s) (ht : recordExperimentResult s result = .ok t)
    (hlast : t.session.pendingExperiments = [])
    (hnew : result.experimentId ∉ s.completedExperimentIds) :
    t.effects = (resumeSession t.session).effects := by
  have hpublishing := experimentResult_publishing hs ht
  obtain ⟨spec, -, ht⟩ := experimentResult_new ht hnew
  rcases continueSession_effects ht with ⟨rfl, hne⟩ | heffects | ⟨heffects, hfailed⟩
  · exact absurd hlast hne
  · exact heffects
  · rw [heffects, resumeSession_failed hpublishing hfailed]

end CuTracer.Service
