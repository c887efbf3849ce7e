import CuTracer.Service.Transitions
import Mathlib.Data.List.Nodup
import Mathlib.Data.List.Perm.Basic

/-! Every session that the transitions lead to is consistent: its lists of pending
and completed experiments, its evidence, its budget and its status agree. -/

namespace CuTracer.Service

/-! ### Runs -/

inductive Command where
  | experimentResult (result : ExperimentResult)
  | triageDecision (decision : TriageDecision)
  | analysisDecision (decision : AnalysisDecision)
  | discoveryChildrenStarted (childSessionIds : List String)
  | infrastructureFailure (reason : String)
  | reportPublished (artifact : Option ArtifactRef)
  | reportPublicationFailed (reason : String)

def step (h : Hashes) (guard : ExperimentGuardPolicy) (s : AnalysisSession) :
    Command → Except ServiceError Transition
  | .experimentResult result => recordExperimentResult s result
  | .triageDecision decision => recordTriageDecision s decision
  | .analysisDecision decision => recordAnalysisDecision h guard s decision
  | .discoveryChildrenStarted ids => recordDiscoveryChildrenStarted s ids
  | .infrastructureFailure reason => recordInfrastructureFailure s reason
  | .reportPublished artifact => recordReportPublished s artifact
  | .reportPublicationFailed reason => recordReportPublicationFailed s reason

/-- The sessions of a run: created, then changed by accepted transitions. -/
inductive Reachable (h : Hashes) (guard : ExperimentGuardPolicy) : AnalysisSession → Prop
  | session {sessionId unit budget policy shared t}
    (create : createSession h sessionId unit budget policy shared = .ok t) :
    Reachable h guard t.session
  | discovery {sessionId unit budget policy maxKernels t}
    (create : createDiscoverySession h sessionId unit budget policy maxKernels = .ok t) :
    Reachable h guard t.session
  | step {s c t} (before : Reachable h guard s) (accepted : step h guard s c = .ok t) :
    Reachable h guard t.session

/-! ### The invariant -/

def SessionStatus.WaitsForExperiments (status : SessionStatus) : Prop :=
  status = .waitingInitial ∨ status = .waitingFollowup

structure AnalysisSession.Consistent (s : AnalysisSession) : Prop where
  pending_nodup : s.pendingExperimentIds.Nodup
  completed_nodup : s.completedExperimentIds.Nodup
  disjoint : ∀ id ∈ s.pendingExperimentIds, id ∉ s.completedExperimentIds
  evidence : ∀ id ∈ s.completedExperimentIds, evidenceCount s id = 1
  submitted : s.submittedExperiments ≤ s.budget.maxExperiments
  fingerprints_length : s.experimentFingerprints.length = s.submittedExperiments
  fingerprints_nodup : s.experimentFingerprints.Nodup
  round : s.roundIndex ≤ s.budget.maxRounds
  pending : s.pendingExperiments ≠ [] ↔ s.status.WaitsForExperiments

/-- The identifiers that experiments of rounds up to `n` have. -/
def Named (h : Hashes) (sessionId : String) (n : ℕ) (id : String) : Prop :=
  id = sessionId ++ "-kernel-discovery" ∨
    ∃ phase k kind d, k ≤ n ∧ id = experimentId h sessionId phase k kind d

/-- A pending spec belongs to the session, and its phase and round are the session's. -/
structure InContext (s : AnalysisSession) (spec : ExperimentSpec) : Prop where
  sessionId : spec.sessionId = s.sessionId
  unit : spec.unit = s.unit
  initial : spec.phase = .initial →
    s.status = .waitingInitial ∧ spec.roundIndex = 0 ∧ s.roundIndex = 0
  followup : spec.phase = .followup →
    s.status = .waitingFollowup ∧ spec.roundIndex = s.roundIndex ∧ 1 ≤ s.roundIndex

/-- What an accepted result keeps, whatever the status: consistency, that the pending
experiments have no evidence yet, and that no later round can reuse an identifier. -/
structure Core (h : Hashes) (s : AnalysisSession) : Prop where
  pending_nodup : s.pendingExperimentIds.Nodup
  completed_nodup : s.completedExperimentIds.Nodup
  disjoint : ∀ id ∈ s.pendingExperimentIds, id ∉ s.completedExperimentIds
  evidence : ∀ id ∈ s.completedExperimentIds, evidenceCount s id = 1
  submitted : s.submittedExperiments ≤ s.budget.maxExperiments
  fingerprints_length : s.experimentFingerprints.length = s.submittedExperiments
  fingerprints_nodup : s.experimentFingerprints.Nodup
  round : s.roundIndex ≤ s.budget.maxRounds
  fresh : ∀ id ∈ s.pendingExperimentIds, evidenceCount s id = 0
  named_pending : ∀ id ∈ s.pendingExperimentIds, Named h s.sessionId s.roundIndex id
  named_evidence : ∀ r ∈ s.evidence.results, Named h s.sessionId s.roundIndex r.experimentId

/-- What every transition keeps. -/
structure Inv (h : Hashes) (s : AnalysisSession) : Prop extends Core h s where
  pending : s.pendingExperiments ≠ [] ↔ s.status.WaitsForExperiments
  context : ∀ spec ∈ s.pendingExperiments, InContext s spec

theorem Inv.consistent {h : Hashes} {s : AnalysisSession} (hinv : Inv h s) : s.Consistent :=
  { hinv with }

theorem Named.mono {h : Hashes} {sessionId id : String} {m n : ℕ} (hid : Named h sessionId m id)
    (hmn : m ≤ n) : Named h sessionId n id := by
  rcases hid with hid | ⟨phase, k, kind, d, hk, hid⟩
  · exact Or.inl hid
  · exact Or.inr ⟨phase, k, kind, d, Nat.le_trans hk hmn, hid⟩

/-! ### Evidence -/

theorem results_add (e : EvidenceBundle) (r : ExperimentResult) :
    (e.add r).results.Perm (e.results ++ [r]) := by
  rw [List.perm_iff_count]
  intro x
  cases r <;>
    · simp only [EvidenceBundle.add, EvidenceBundle.results, List.map_append, List.map_cons,
        List.map_nil, List.count_append]
      omega

theorem evidenceCount_of_perm {s : AnalysisSession} {results : List ExperimentResult}
    (hperm : s.evidence.results.Perm results) (id : String) :
    evidenceCount s id = results.countP fun r => r.experimentId = id := hperm.countP_eq _

/-- A completed experiment is named as its evidence is. -/
theorem exists_evidence {s : AnalysisSession} {id : String} (hcount : evidenceCount s id = 1) :
    ∃ r ∈ s.evidence.results, r.experimentId = id := by
  have hpos : 0 < s.evidence.results.countP fun r => r.experimentId = id := by
    unfold evidenceCount at hcount
    omega
  obtain ⟨r, hr, hid⟩ := List.countP_pos_iff.mp hpos
  exact ⟨r, hr, of_decide_eq_true hid⟩

theorem Core.named_completed {h : Hashes} {s : AnalysisSession} (hcore : Core h s) {id : String}
    (hid : id ∈ s.completedExperimentIds) : Named h s.sessionId s.roundIndex id := by
  obtain ⟨r, hr, rfl⟩ := exists_evidence (hcore.evidence id hid)
  exact hcore.named_evidence r hr

/-! ### Transitions that leave the experiments alone -/

/-- `s'` has the experiments of `s`, none of them pending, and waits for none. -/
structure Settled (s s' : AnalysisSession) : Prop where
  sessionId : s'.sessionId = s.sessionId
  evidence : s'.evidence = s.evidence
  budget : s'.budget = s.budget
  pending : s'.pendingExperiments = []
  completed : s'.completedExperimentIds = s.completedExperimentIds
  fingerprints : s'.experimentFingerprints = s.experimentFingerprints
  submitted : s'.submittedExperiments = s.submittedExperiments
  round : s'.roundIndex = s.roundIndex
  status : ¬ s'.status.WaitsForExperiments

variable {h : Hashes} {guard : ExperimentGuardPolicy} {s s' : AnalysisSession} {t : Transition}

theorem Core.settled (hcore : Core h s) (hs : Settled s s') : Inv h s' := by
  have hids : s'.pendingExperimentIds = [] := by
    rw [AnalysisSession.pendingExperimentIds, hs.pending, List.map_nil]
  refine ⟨⟨?_, ?_, ?_, ?_, ?_, ?_, ?_, ?_, ?_, ?_, ?_⟩, ?_, ?_⟩
  · rw [hids]
    exact List.nodup_nil
  · rw [hs.completed]
    exact hcore.completed_nodup
  · rw [hids]
    exact fun id hid => nomatch hid
  · rw [hs.completed]
    intro id hid
    rw [evidenceCount, hs.evidence]
    exact hcore.evidence id hid
  · rw [hs.submitted, hs.budget]
    exact hcore.submitted
  · rw [hs.fingerprints, hs.submitted]
    exact hcore.fingerprints_length
  · rw [hs.fingerprints]
    exact hcore.fingerprints_nodup
  · rw [hs.round, hs.budget]
    exact hcore.round
  · rw [hids]
    exact fun id hid => nomatch hid
  · rw [hids]
    exact fun id hid => nomatch hid
  · rw [hs.evidence, hs.sessionId, hs.round]
    exact hcore.named_evidence
  · exact ⟨fun hne => absurd hs.pending hne, fun hw => absurd hw hs.status⟩
  · rw [hs.pending]
    exact fun spec hspec => nomatch hspec

theorem Inv.pending_nil (hinv : Inv h s) (hstatus : ¬ s.status.WaitsForExperiments) :
    s.pendingExperiments = [] := by
  by_contra hne
  exact hstatus (hinv.pending.mp hne)

theorem not_waits_of_reported {status : SessionStatus} (h : status.reported = true) :
    ¬ status.WaitsForExperiments := by
  rintro (rfl | rfl) <;> exact nomatch h

theorem Inv.pending_nil_of_eq (hinv : Inv h s) {status : SessionStatus} (hstatus : s.status = status)
    (hwaits : ¬ status.WaitsForExperiments) : s.pendingExperiments = [] :=
  hinv.pending_nil (hstatus ▸ hwaits)

/-- A failure either finds a finished session or ends it. -/
theorem infrastructureFailure_settled {reason : String}
    (ht : recordInfrastructureFailure s reason = .ok t) : t.session = s ∨ Settled s t.session := by
  obtain ⟨-, rfl⟩ | ⟨-, rfl⟩ := infrastructureFailure_cases ht
  · exact Or.inl rfl
  · exact Or.inr ⟨rfl, rfl, rfl, rfl, rfl, rfl, rfl, rfl, by simp [SessionStatus.WaitsForExperiments]⟩

theorem triageDecision_settled (hinv : Inv h s) {decision : TriageDecision}
    (ht : recordTriageDecision s decision = .ok t) : Settled s t.session := by
  obtain ⟨hstatus, ⟨status, report, hreported, -, rfl⟩ | ⟨-, rfl⟩⟩ := triageDecision_cases ht
  all_goals
    have hpending := hinv.pending_nil_of_eq hstatus (by simp [SessionStatus.WaitsForExperiments])
  · exact ⟨rfl, rfl, rfl, hpending, rfl, rfl, rfl, rfl, not_waits_of_reported hreported⟩
  · exact ⟨rfl, rfl, rfl, hpending, rfl, rfl, rfl, rfl, by simp [SessionStatus.WaitsForExperiments]⟩

theorem discoveryChildrenStarted_settled (hinv : Inv h s) {ids : List String}
    (ht : recordDiscoveryChildrenStarted s ids = .ok t) : t.session = s ∨ Settled s t.session := by
  obtain rfl | ⟨hstatus, reason, rfl⟩ := discoveryChildrenStarted_cases ht
  · exact Or.inl rfl
  · have hpending := hinv.pending_nil_of_eq hstatus (by simp [SessionStatus.WaitsForExperiments])
    exact Or.inr ⟨rfl, rfl, rfl, hpending, rfl, rfl, rfl, rfl, not_waits_of_reported rfl⟩

theorem reportPublished_settled (hinv : Inv h s) {artifact : Option ArtifactRef}
    (ht : recordReportPublished s artifact = .ok t) : t.session = s ∨ Settled s t.session := by
  obtain ⟨hreported, ⟨-, rfl⟩ | ⟨-, rfl⟩⟩ := reportPublished_cases ht
  · exact Or.inl rfl
  · have hwaits := not_waits_of_reported hreported
    exact Or.inr ⟨rfl, rfl, rfl, hinv.pending_nil hwaits, rfl, rfl, rfl, rfl, hwaits⟩

theorem reportPublicationFailed_settled (hinv : Inv h s) {reason : String}
    (ht : recordReportPublicationFailed s reason = .ok t) :
    t.session = s ∨ Settled s t.session := by
  obtain ⟨hreported, ⟨-, rfl⟩ | ⟨-, rfl⟩⟩ := reportPublicationFailed_cases ht
  · exact Or.inl rfl
  · have hwaits := not_waits_of_reported hreported
    exact Or.inr ⟨rfl, rfl, rfl, hinv.pending_nil hwaits, rfl, rfl, rfl, rfl, hwaits⟩

/-! ### Results -/

theorem Continues.not_waits {phase : ExperimentPhase} {status : SessionStatus} {effects : List SessionEffect}
    (hnext : Continues s phase status effects) : ¬ status.WaitsForExperiments := by
  cases hnext <;> simp [SessionStatus.WaitsForExperiments]

section Accept

variable {result : ExperimentResult} {spec : ExperimentSpec}

theorem pendingIds_acceptResult (s : AnalysisSession) (spec : ExperimentSpec)
    (result : ExperimentResult) : (acceptResult s spec result).pendingExperimentIds =
      s.pendingExperimentIds.filter fun id => id ≠ result.experimentId := by
  simp only [AnalysisSession.pendingExperimentIds, acceptResult, List.filter_map]
  rfl

theorem evidenceCount_acceptResult (s : AnalysisSession) (spec : ExperimentSpec)
    (result : ExperimentResult) (id : String) : evidenceCount (acceptResult s spec result) id =
      evidenceCount s id + if result.experimentId = id then 1 else 0 := by
  rw [evidenceCount_of_perm (s := acceptResult s spec result) (results_add s.evidence result),
    List.countP_append, List.countP_singleton]
  simp only [evidenceCount, decide_eq_true_eq]

theorem Core.accept (hcore : Core h s) (hacc : Accepted s result spec) :
    Core h (acceptResult s spec result) := by
  have hpending : result.experimentId ∈ s.pendingExperimentIds := by
    rw [← hacc.id]
    exact List.mem_map_of_mem hacc.pending
  have hmem : ∀ id ∈ (acceptResult s spec result).pendingExperimentIds,
      id ∈ s.pendingExperimentIds ∧ id ≠ result.experimentId := by
    intro id hid
    rw [pendingIds_acceptResult] at hid
    simpa using List.mem_filter.mp hid
  refine ⟨?_, ?_, ?_, ?_, hcore.submitted, hcore.fingerprints_length, hcore.fingerprints_nodup,
    hcore.round, ?_, ?_, ?_⟩
  · rw [pendingIds_acceptResult]
    exact hcore.pending_nodup.filter _
  · refine hcore.completed_nodup.append (List.nodup_singleton _) ?_
    simpa using hacc.new
  · intro id hid hcompleted
    obtain ⟨hold, hne⟩ := hmem id hid
    rcases List.mem_append.mp hcompleted with hold' | hnew
    · exact hcore.disjoint id hold hold'
    · exact hne (List.mem_singleton.mp hnew)
  · intro id hid
    rw [evidenceCount_acceptResult]
    rcases List.mem_append.mp hid with hold | hnew
    · rw [hcore.evidence id hold, if_neg]
      rintro rfl
      exact hacc.new hold
    · rw [List.mem_singleton.mp hnew, hcore.fresh _ hpending, if_pos rfl]
  · intro id hid
    obtain ⟨hold, hne⟩ := hmem id hid
    rw [evidenceCount_acceptResult, hcore.fresh id hold, if_neg (Ne.symm hne)]
  · exact fun id hid => hcore.named_pending id (hmem id hid).1
  · intro r hr
    rcases List.mem_append.mp ((results_add s.evidence result).mem_iff.mp hr) with hold | hnew
    · exact hcore.named_evidence r hold
    · rw [List.mem_singleton.mp hnew]
      exact hcore.named_pending _ hpending

theorem experimentResult_inv (hinv : Inv h s) (ht : recordExperimentResult s result = .ok t) :
    Inv h t.session := by
  rcases experimentResult_cases ht with ⟨-, rfl⟩ | ⟨spec, hacc, ht⟩
  · exact hinv
  · have hcore := hinv.toCore.accept hacc
    rcases continueSession_cases ht with ⟨hne, rfl⟩ | ⟨hnil, status, reason, effects, hnext, rfl⟩
    · refine ⟨hcore, ⟨fun _ => ?_, fun _ => hne⟩, ?_⟩
      · exact hinv.pending.mp (List.ne_nil_of_mem hacc.pending)
      · intro spec' hspec'
        obtain ⟨hid, hunit, hinitial, hfollowup⟩ :=
          hinv.context spec' (List.mem_of_mem_filter hspec')
        exact ⟨hid, hunit, hinitial, hfollowup⟩
    · exact hcore.settled ⟨rfl, rfl, rfl, hnil, rfl, rfl, rfl, rfl, hnext.not_waits⟩

end Accept

/-! ### Decisions of the reasoner -/

theorem Named.not_next (hideal : h.Ideal) {sessionId : String} {n : ℕ} {phase : ExperimentPhase}
    {kind : ExperimentKind} {d : String} :
    ¬ Named h sessionId n (experimentId h sessionId phase (n + 1) kind d) := by
  rintro (hid | ⟨phase', k, kind', d', hk, hid⟩)
  · exact experimentId_ne_discovery hideal _ _ _ _ hid
  · obtain ⟨-, hround, -⟩ := experimentId_inj hideal hid
    omega

open ExperimentGuardPolicy in
/-- A wave of new experiments that the budget allows. -/
theorem startFollowup_inv (hideal : h.Ideal) (hcore : Core h s) {n : ℕ}
    {guarded : GuardedExperiments} (hw : Wave h s n guarded) (hne : guarded.experiments ≠ [])
    (hbudget : s.submittedExperiments + guarded.experiments.length ≤ s.budget.maxExperiments)
    (hround : s.roundIndex < s.budget.maxRounds) (turns : List AnalysisTurn) :
    Inv h (startFollowup { s with turns := turns } guarded).session := by
  have hnew : ∀ id ∈ guarded.experiments.map ExperimentSpec.experimentId,
      ∃ kind i d, id = requestId h s kind i d := by
    intro id hid
    obtain ⟨spec, hspec, rfl⟩ := List.mem_map.mp hid
    obtain ⟨kind, i, d, -, heq⟩ := hw.named spec hspec
    exact ⟨kind, i, d, heq⟩
  have hunnamed : ∀ id ∈ guarded.experiments.map ExperimentSpec.experimentId,
      ¬ Named h s.sessionId s.roundIndex id := by
    intro id hid
    obtain ⟨kind, i, d, rfl⟩ := hnew id hid
    exact Named.not_next hideal
  refine ⟨⟨hw.ids_nodup, hcore.completed_nodup, ?_, hcore.evidence, hbudget, ?_, ?_, hround, ?_, ?_,
    ?_⟩, ⟨fun _ => Or.inr rfl, fun _ => hne⟩, ?_⟩
  · exact fun id hid hcompleted => hunnamed id hid (hcore.named_completed hcompleted)
  · show (s.experimentFingerprints ++ guarded.fingerprints).length = _
    rw [List.length_append, hcore.fingerprints_length, hw.length]
    rfl
  · refine hcore.fingerprints_nodup.append hw.prints_nodup ?_
    exact fun print hold hprint => hw.prints_new print hprint hold
  · intro id hid
    refine List.countP_eq_zero.mpr fun r hr heq => hunnamed id hid ?_
    rw [← of_decide_eq_true heq]
    exact hcore.named_evidence r hr
  · intro id hid
    obtain ⟨kind, i, d, rfl⟩ := hnew id hid
    exact Or.inr ⟨.followup, s.roundIndex + 1, kind, _, Nat.le_refl _, rfl⟩
  · exact fun r hr => (hcore.named_evidence r hr).mono (Nat.le_succ _)
  · intro spec hspec
    obtain ⟨hsession, hunit, hphase, hindex, -⟩ := hw.next spec hspec
    refine ⟨hsession, hunit, fun hinitial => ?_, fun _ => ⟨rfl, hindex, Nat.succ_pos _⟩⟩
    exact nomatch hphase.symm.trans hinitial

theorem analysisDecision_inv (hideal : h.Ideal) (hinv : Inv h s) {decision : AnalysisDecision}
    (ht : recordAnalysisDecision h guard s decision = .ok t) : Inv h t.session := by
  obtain ⟨hstatus, u, hu, ⟨status, report, reason, hreported, -, -, rfl⟩ | ⟨guarded, hfollows, rfl⟩⟩ :=
    analysisDecision_cases ht
  · have hpending := hinv.pending_nil_of_eq hstatus (by simp [SessionStatus.WaitsForExperiments])
    rw [hu.eq]
    exact hinv.toCore.settled ⟨rfl, rfl, rfl, hpending, rfl, rfl, rfl, rfl, not_waits_of_reported hreported⟩
  · obtain ⟨n, hw⟩ := ExperimentGuardPolicy.expand_wave hideal hfollows.expand
    rw [hu.eq]
    exact startFollowup_inv hideal (s := addTurn s decision) { hinv with } hw hfollows.ne_nil hfollows.budget
      hfollows.round _

end CuTracer.Service
