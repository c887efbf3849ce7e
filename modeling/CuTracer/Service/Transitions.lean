import CuTracer.Service.Guard
import CuTracer.Service.Session

/-! What each transition of a session can do, and when. Whatever is shown of all sessions of a run is
shown from these cases. -/

namespace CuTracer.Service

variable {h : Hashes} {guard : ExperimentGuardPolicy} {s : AnalysisSession} {t : Transition}

theorem raiseIf_ok {c : Bool} {message : String} {args : List String} {u : Unit}
    (h : raiseIf c message args = .ok u) : c = false := by
  cases c with
  | false => rfl
  | true => exact nomatch h

theorem rejectIf_ok {c : Bool} {code message : String} {args : List String} {u : Unit}
    (h : rejectIf c code message args = .ok u) : c = false := by
  cases c with
  | false => rfl
  | true => exact nomatch h

/-- How a session ends with a report that is to be published. -/
def finished (u : AnalysisSession) (status : SessionStatus) (report : ExplainReport) (reason : String) :
    Transition :=
  ⟨{ u with
      status := status
      report := some report
      terminationReason := reason
      reportPublication := .pending }, [.publishReport]⟩

/-! ### Results -/

/-- An accepted result answers one pending spec, whose context and payload were checked. -/
structure Accepted (s : AnalysisSession) (result : ExperimentResult) (spec : ExperimentSpec) :
    Prop where
  pending : spec ∈ s.pendingExperiments
  id : spec.experimentId = result.experimentId
  new : result.experimentId ∉ s.completedExperimentIds
  context : validateSpecContext s spec = .ok ()
  valid : validateResultAgainstSpec spec result = .ok ()

/-- A result is a repetition, or it is accepted. -/
theorem experimentResult_cases {result : ExperimentResult}
    (ht : recordExperimentResult s result = .ok t) :
    (result.experimentId ∈ s.completedExperimentIds ∧ t = ⟨s, []⟩) ∨
      ∃ spec, Accepted s result spec ∧
        continueSession (acceptResult s spec result) spec.phase = .ok t := by
  obtain ⟨-, -, ht⟩ := bind_ok ht
  split at ht
  · rename_i hold
    split at ht
    · split at ht
      · exact Or.inl ⟨hold, (Except.ok.inj ht).symm⟩
      · exact nomatch ht
    · exact nomatch ht
  · rename_i hnew
    split at ht
    · exact nomatch ht
    · rename_i spec hfilter
      obtain ⟨⟨⟩, hcontext, ht⟩ := bind_ok ht
      obtain ⟨⟨⟩, hvalid, ht⟩ := bind_ok ht
      have hmem : spec ∈ s.pendingExperiments.filter fun s =>
          s.experimentId = result.experimentId := by
        rw [hfilter]
        exact List.mem_singleton_self spec
      obtain ⟨hpending, hid⟩ := List.mem_filter.mp hmem
      exact Or.inr ⟨spec, ⟨hpending, of_decide_eq_true hid, hnew, hcontext, hvalid⟩, ht⟩
    · exact nomatch ht

/-- How a session goes on when nothing is pending any more. -/
inductive Continues (s : AnalysisSession) (phase : ExperimentPhase) : SessionStatus → List SessionEffect → Prop
  | failed : s.discoveryPlan.isSome → Continues s phase .failed []
  | children : s.discoveryPlan.isSome → Continues s phase .waitingChildren [.createChildSessions]
  | triage : ¬ s.discoveryPlan.isSome → Continues s phase .waitingTriage [.runTriage]
  | reasoner : ¬ s.discoveryPlan.isSome → phase = .followup → Continues s phase .waitingReasoner [.runReasoner]

/-- What a session continues with: itself while something is pending, else another status. -/
theorem continueSession_cases {phase : ExperimentPhase} (ht : continueSession s phase = .ok t) :
    (s.pendingExperiments ≠ [] ∧ t = ⟨s, []⟩) ∨
      (s.pendingExperiments = [] ∧ ∃ status reason effects, Continues s phase status effects ∧
        t = ⟨{ s with status := status, terminationReason := reason }, effects⟩) := by
  unfold continueSession at ht
  split at ht
  · rename_i hne
    exact Or.inl ⟨hne, (Except.ok.inj ht).symm⟩
  · rename_i hnil
    refine Or.inr ⟨not_not.mp hnil, ?_⟩
    split at ht
    · rename_i hplan
      split at ht
      · split at ht
        · exact ⟨.failed, _, [], .failed hplan, (Except.ok.inj ht).symm⟩
        · exact ⟨.waitingChildren, s.terminationReason, _, .children hplan, (Except.ok.inj ht).symm⟩
      · exact nomatch ht
    · rename_i hplan
      split at ht
      · exact ⟨.waitingTriage, s.terminationReason, _, .triage hplan, (Except.ok.inj ht).symm⟩
      · exact ⟨.waitingReasoner, s.terminationReason, _, .reasoner hplan rfl, (Except.ok.inj ht).symm⟩

/-! ### Decisions -/

theorem triageDecision_cases {decision : TriageDecision} (ht : recordTriageDecision s decision = .ok t) :
    s.status = .waitingTriage ∧
      ((∃ status report, status.reported = true ∧ report.evidenceRefs = artifactRefs s.evidence ∧
          t = finished { s with triage := some decision } status report decision.reason) ∨
        decision.outcome = .analyze ∧
          t = ⟨{ s with triage := some decision, status := .waitingReasoner }, [.runReasoner]⟩) := by
  unfold recordTriageDecision at ht
  split at ht
  · exact nomatch ht
  rename_i hstatus
  refine ⟨not_not.mp hstatus, ?_⟩
  split at ht
  · exact Or.inl ⟨.inconclusive, _, rfl, rfl, (Except.ok.inj ht).symm⟩
  · exact Or.inl ⟨.completed, _, rfl, rfl, (Except.ok.inj ht).symm⟩
  · rename_i hanalyze
    exact Or.inr ⟨hanalyze, (Except.ok.inj ht).symm⟩

/-- Why the report of an accepted turn can be published. -/
structure ReportGate (s : AnalysisSession) (report : ExplainReport) : Prop where
  sufficient : report.evidenceSufficiency = .sufficient
  known : report.raceClass ≠ .unknown
  explained : report.raceClass ≠ .none → blank report.rootCause = false
  ordered : report.raceClass = .raw → rawTraceClaimIsUnsupported s.evidence report = false

theorem foreignRefs_nil {report : ExplainReport} (hforeign : foreignRefs s report = []) :
    ∀ ref ∈ report.evidenceRefs, ref ∈ artifactRefs s.evidence := by
  intro ref href
  have hnot := List.filter_eq_nil_iff.mp hforeign ref href
  simpa using hnot

variable {decision : AnalysisDecision}

theorem turnRejection_none {report : ExplainReport} (haccept : turnRejection s decision = none)
    (hreport : decision.report = some report) :
    (∀ ref ∈ report.evidenceRefs, ref ∈ artifactRefs s.evidence) ∧
      (decision.kind = .final → ReportGate s report) := by
  unfold turnRejection at haccept
  split at haccept
  · exact nomatch haccept
  · unfold analysisReportRejection at haccept
    rw [hreport] at haccept
    dsimp only at haccept
    split_ifs at haccept with hforeign hkind hsufficient hknown hraw hnone hrace
    · exact ⟨foreignRefs_nil (not_not.mp hforeign), fun hfinal => absurd hfinal hkind⟩
    · refine ⟨foreignRefs_nil (not_not.mp hforeign), fun _ => ⟨not_not.mp hsufficient, hknown,
        fun hclass => ?_, fun hclass => ?_⟩⟩
      · simpa [hclass] using hrace
      · simpa [hclass] using hraw

def Noted (s : AnalysisSession) (decision : AnalysisDecision) (u : AnalysisSession) : Prop :=
  u = addTurn s decision ∨ ∃ notes, u = addNotes (addTurn s decision) notes

theorem length_noteLastTurn (turns : List AnalysisTurn) (notes : List String) :
    (noteLastTurn turns notes).length = turns.length := by
  unfold noteLastTurn
  cases hlast : turns.getLast? with
  | none => rfl
  | some turn =>
    have hne : turns ≠ [] := by
      rintro rfl
      simp at hlast
    have hpos := List.length_pos_of_ne_nil hne
    simp only [List.length_append, List.length_dropLast, List.length_singleton]
    omega

theorem Noted.length_turns {u : AnalysisSession} (hu : Noted s decision u) :
    u.turns.length = s.turns.length + 1 := by
  rcases hu with rfl | ⟨notes, rfl⟩
  · simp [addTurn]
  · simp [addNotes, length_noteLastTurn, addTurn]

theorem Noted.eq {u : AnalysisSession} (hu : Noted s decision u) :
    u = { s with turns := u.turns } := by
  rcases hu with rfl | ⟨notes, rfl⟩ <;> rfl

/-- A wave of experiments that a session has rounds and experiments left for. -/
structure Follows (h : Hashes) (guard : ExperimentGuardPolicy) (s : AnalysisSession) (decision : AnalysisDecision)
    (guarded : GuardedExperiments) : Prop where
  expand : guard.expand h (addTurn s decision) decision.requests = .ok guarded
  ne_nil : guarded.experiments ≠ []
  budget : s.submittedExperiments + guarded.experiments.length ≤ s.budget.maxExperiments
  round : s.roundIndex < s.budget.maxRounds

/-- A decision ends the session with a report, which passed the gate if the session is completed, or starts the
next wave of experiments. -/
theorem analysisDecision_cases (ht : recordAnalysisDecision h guard s decision = .ok t) :
    s.status = .waitingReasoner ∧ ∃ u, Noted s decision u ∧
      ((∃ status report reason, status.reported = true ∧
          (∀ ref ∈ report.evidenceRefs, ref ∈ artifactRefs s.evidence) ∧
          (status = .completed → ReportGate s report) ∧ t = finished u status report reason) ∨
        ∃ guarded, Follows h guard s decision guarded ∧ t = startFollowup u guarded) := by
  unfold recordAnalysisDecision at ht
  split at ht
  · exact nomatch ht
  rename_i hstatus
  refine ⟨not_not.mp hstatus, ?_⟩
  -- a session that ends because a turn or a wave was refused cites all that it has
  have hrefused (u : AnalysisSession) (hu : Noted s decision u) (reason : String)
      (ht : .ok (terminateInconclusive u reason none) = (.ok t : Except ServiceError Transition)) :
      ∃ u, Noted s decision u ∧ ((∃ status report reason, status.reported = true ∧
          (∀ ref ∈ report.evidenceRefs, ref ∈ artifactRefs s.evidence) ∧
          (status = .completed → ReportGate s report) ∧ t = finished u status report reason) ∨
        ∃ guarded, Follows h guard s decision guarded ∧ t = startFollowup u guarded) := by
    refine ⟨u, hu, Or.inl ⟨.inconclusive, _, reason, rfl, ?_, nofun, (Except.ok.inj ht).symm⟩⟩
    rw [hu.eq]
    exact fun _ href => href
  dsimp only at ht
  split at ht
  · exact hrefused _ (Or.inr ⟨_, rfl⟩) _ ht
  · rename_i haccept
    split at ht
    · exact nomatch ht
    · rename_i report hkind hreport
      obtain ⟨hrefs, hgate⟩ := turnRejection_none haccept hreport
      exact ⟨_, Or.inl rfl, Or.inl ⟨.completed, report, _, rfl, hrefs, fun _ => hgate hkind,
        (Except.ok.inj ht).symm⟩⟩
    · exact nomatch ht
    · rename_i report _ hreport
      exact ⟨_, Or.inl rfl, Or.inl ⟨.inconclusive, report, _, rfl, (turnRejection_none haccept hreport).1, nofun,
        (Except.ok.inj ht).symm⟩⟩
    · unfold requestFollowup at ht
      split at ht
      · exact hrefused _ (Or.inl rfl) _ ht
      · rename_i hround
        obtain ⟨guarded, hexpand, ht⟩ := bind_ok ht
        dsimp only at ht
        split at ht
        · exact hrefused _ (Or.inr ⟨_, rfl⟩) _ ht
        · rename_i hne
          split at ht
          · exact hrefused _ (Or.inr ⟨_, rfl⟩) _ ht
          · rename_i hbudget
            exact ⟨_, Or.inr ⟨_, rfl⟩, Or.inr ⟨guarded, ⟨hexpand, hne, Nat.le_of_not_lt hbudget,
              Nat.lt_of_not_le hround⟩, (Except.ok.inj ht).symm⟩⟩

/-! ### Other transitions -/

theorem infrastructureFailure_cases {reason : String} (ht : recordInfrastructureFailure s reason = .ok t) :
    (s.status.terminal = true ∧ t = ⟨s, []⟩) ∨ (s.status.terminal = false ∧
      t = ⟨{ s with
        status := .failed
        pendingExperiments := []
        report := none
        terminationReason := clipReason reason }, []⟩) := by
  obtain ⟨-, -, ht⟩ := bind_ok ht
  split at ht
  · rename_i hterminal
    exact Or.inl ⟨hterminal, (Except.ok.inj ht).symm⟩
  · rename_i hterminal
    exact Or.inr ⟨Bool.eq_false_iff.mpr hterminal, (Except.ok.inj ht).symm⟩

theorem discoveryChildrenStarted_cases {ids : List String}
    (ht : recordDiscoveryChildrenStarted s ids = .ok t) :
    t = ⟨s, []⟩ ∨ (s.status = .waitingChildren ∧ ∃ reason, t = ⟨{ s with
      childSessionIds := ids
      status := .completed
      terminationReason := reason }, []⟩) := by
  obtain ⟨-, -, ht⟩ := bind_ok ht
  split at ht
  · split at ht
    · exact Or.inl (Except.ok.inj ht).symm
    · exact nomatch ht
  · split at ht
    · exact nomatch ht
    · rename_i hstatus
      split at ht
      · split at ht
        · exact nomatch ht
        · split at ht
          · exact nomatch ht
          · exact Or.inr ⟨not_not.mp hstatus, _, (Except.ok.inj ht).symm⟩
      · exact nomatch ht

theorem reportPublished_cases {artifact : Option ArtifactRef}
    (ht : recordReportPublished s artifact = .ok t) : s.status.reported = true ∧
      ((s.reportPublication = .published ∧ t = ⟨s, []⟩) ∨
        (s.reportPublication = .pending ∧ t = ⟨{ s with
          reportPublication := .published
          reportPublicationError := ""
          publishedReport := artifact }, []⟩)) := by
  obtain ⟨_, hreported, ht⟩ := bind_ok ht
  refine ⟨by simpa using raiseIf_ok hreported, ?_⟩
  obtain ⟨-, -, ht⟩ := bind_ok ht
  split_ifs at ht with hpublished hpending
  · exact Or.inl ⟨hpublished, (Except.ok.inj ht).symm⟩
  · exact Or.inr ⟨not_not.mp hpending, (Except.ok.inj ht).symm⟩

theorem reportPublicationFailed_cases {reason : String}
    (ht : recordReportPublicationFailed s reason = .ok t) : s.status.reported = true ∧
      ((s.reportPublication = .failed ∧ t = ⟨s, []⟩) ∨
        (s.reportPublication = .pending ∧ t = ⟨{ s with
          reportPublication := .failed
          reportPublicationError := clipReason reason }, []⟩)) := by
  obtain ⟨-, -, ht⟩ := bind_ok ht
  obtain ⟨_, hreported, ht⟩ := bind_ok ht
  refine ⟨by simpa using raiseIf_ok hreported, ?_⟩
  split_ifs at ht with hfailed hpending
  · exact Or.inl ⟨hfailed, (Except.ok.inj ht).symm⟩
  · exact Or.inr ⟨not_not.mp hpending, (Except.ok.inj ht).symm⟩

end CuTracer.Service
