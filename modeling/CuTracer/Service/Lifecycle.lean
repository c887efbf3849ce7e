import CuTracer.Service.Create

/-! What a session's status says about its report, its triage decision and its
discovery. Evidence stays as it is once there is a report, so a report cites what
the session holds. -/

namespace CuTracer.Service

/-- How many discovery results a session has or waits for. -/
def discoveries (s : AnalysisSession) : ℕ :=
  (s.pendingExperiments.countP fun spec => spec.kind = .kernelDiscovery) +
    s.evidence.discovery.length

/-- A discovery session is never triaged, and discovers once. -/
structure Discovering (s : AnalysisSession) : Prop where
  not_triaged : s.status ≠ .waitingTriage
  not_analyzed : s.status ≠ .waitingReasoner
  not_followed : s.status ≠ .waitingFollowup
  once : s.status = .waitingInitial → discoveries s = 1

/-- What every transition keeps of the status. -/
structure Lifecycle (s : AnalysisSession) : Prop where
  reported : s.report.isSome → s.status.reported = true
  cites : ∀ report, s.report = some report →
    ∀ ref ∈ report.evidenceRefs, ref ∈ artifactRefs s.evidence
  triaged : s.status = .waitingReasoner ∨ s.status = .waitingFollowup →
    ∃ decision, s.triage = some decision ∧ decision.outcome = .analyze
  discovering : s.discoveryPlan.isSome → Discovering s

variable {h : Hashes} {guard : ExperimentGuardPolicy} {s s' : AnalysisSession} {t : Transition}

/-! ### Statuses -/

/-- A finished session says nothing about triage or discovery. -/
theorem lifecycle_finished (hstatus : s.status.terminal = true)
    (hreported : s.report.isSome → s.status.reported = true)
    (hcites : ∀ report, s.report = some report →
      ∀ ref ∈ report.evidenceRefs, ref ∈ artifactRefs s.evidence) : Lifecycle s where
  reported := hreported
  cites := hcites
  triaged := by
    rintro (hwait | hwait) <;>
      · rw [hwait] at hstatus
        exact nomatch hstatus
  discovering _ := by
    constructor <;>
      · intro hwait
        rw [hwait] at hstatus
        exact nomatch hstatus

/-- A session that ends with a report of its own evidence. -/
theorem lifecycle_reported {report : ExplainReport} (hstatus : s.status.reported = true)
    (hreport : s.report = some report)
    (hcites : ∀ ref ∈ report.evidenceRefs, ref ∈ artifactRefs s.evidence) : Lifecycle s := by
  refine lifecycle_finished ?_ (fun _ => hstatus) fun report' heq => ?_
  · cases hs : s.status <;> rw [hs] at hstatus <;> first | rfl | exact nomatch hstatus
  · obtain rfl := Option.some.inj (hreport.symm.trans heq)
    exact hcites

theorem lifecycle_without_report (hstatus : s.status.terminal = true) (hreport : s.report = none) :
    Lifecycle s := by
  refine lifecycle_finished hstatus (fun hsome => ?_) fun report hsome => ?_
  · rw [hreport] at hsome
    exact nomatch hsome
  · rw [hreport] at hsome
    exact nomatch hsome

theorem lifecycle_terminateInconclusive (s : AnalysisSession) (reason : String)
    (triage : Option TriageDecision) : Lifecycle (terminateInconclusive s reason triage).session :=
  lifecycle_reported rfl rfl fun _ href => href

/-- A session that is not finished has no report yet. -/
theorem Lifecycle.unreported (hlife : Lifecycle s) (hstatus : s.status.reported ≠ true) :
    s.report = none := by
  cases hreport : s.report with
  | none => rfl
  | some report => exact absurd (hlife.reported (by rw [hreport]; rfl)) hstatus

/-- Without a report only the other two properties are left. -/
theorem lifecycle_unreported (hreport : s.report = none)
    (htriaged : s.status = .waitingReasoner ∨ s.status = .waitingFollowup →
      ∃ decision, s.triage = some decision ∧ decision.outcome = .analyze)
    (hdiscovering : s.discoveryPlan.isSome → Discovering s) : Lifecycle s where
  reported hsome := by
    rw [hreport] at hsome
    exact nomatch hsome
  cites report hsome := by
    rw [hreport] at hsome
    exact nomatch hsome
  triaged := htriaged
  discovering := hdiscovering

/-! ### New sessions -/

theorem createSession_lifecycle {sessionId : String} {unit : WorkUnit} {budget : SessionBudget}
    {policy : InitialCampaignPolicy} {shared : List SanitizerSweepResult}
    (hcreate : createSession h sessionId unit budget policy shared = .ok t) :
    Lifecycle t.session := by
  obtain ⟨-, -, hcreate⟩ := bind_ok hcreate
  obtain ⟨state, -, hcreate⟩ := bind_ok hcreate
  split at hcreate
  · cases hcreate
    exact lifecycle_terminateInconclusive _ _ _
  · cases hcreate
    refine lifecycle_unreported rfl (fun hwait => ?_) fun hplan => nomatch hplan
    simp only [openSession] at hwait
    split_ifs at hwait <;> exact hwait.elim (fun h => nomatch h) fun h => nomatch h

theorem createDiscoverySession_lifecycle {sessionId : String} {unit : WorkUnit}
    {budget : SessionBudget} {policy : InitialCampaignPolicy} {maxKernels : ℤ}
    (hcreate : createDiscoverySession h sessionId unit budget policy maxKernels = .ok t) :
    Lifecycle t.session := by
  obtain ⟨-, -, hcreate⟩ := bind_ok hcreate
  obtain ⟨-, -, hcreate⟩ := bind_ok hcreate
  dsimp only at hcreate
  split at hcreate
  · cases hcreate
    exact lifecycle_terminateInconclusive _ _ _
  · cases hcreate
    refine lifecycle_unreported rfl (fun hwait => hwait.elim (fun h => nomatch h) fun h => nomatch h)
      fun _ => ⟨(fun h => nomatch h), (fun h => nomatch h), (fun h => nomatch h), fun _ => ?_⟩
    -- the discovery experiment, and sanitizers only
    simp only [discoveries, discoveryExperiments, List.countP_cons, EvidenceBundle.empty,
      List.length_nil, Nat.add_zero]
    have hsanitizers : ((policy.plan h sessionId unit).experiments.filter fun spec =>
        spec.kind = .computeSanitizer && spec.sanitizerTool.any isTargetScopedSanitizer).countP
          (fun spec => spec.kind = .kernelDiscovery) = 0 := by
      refine List.countP_eq_zero.mpr fun spec hspec hkind => ?_
      have hand := List.of_mem_filter hspec
      simp only [Bool.and_eq_true, decide_eq_true_eq] at hand
      simp [hand.1] at hkind
    rw [hsanitizers]
    rfl

/-! ### Results -/

variable {result : ExperimentResult}

theorem expectedType_of_valid {spec : ExperimentSpec}
    (hvalid : validateResultAgainstSpec spec result = .ok ()) :
    expectedTypeMatches spec result = true := by
  obtain ⟨-, -, hvalid⟩ := bind_ok hvalid
  obtain ⟨_, htype, -⟩ := bind_ok hvalid
  simpa using rejectIf_ok htype

/-- One entry and all others, where keys are unique. -/
theorem perm_cons_others {α : Type} [DecidableEq α] {f : α → String} {xs : List α} {a : α}
    (hnodup : (xs.map f).Nodup) (hmem : a ∈ xs) : xs.Perm (a :: xs.filter fun x => f x ≠ f a) := by
  have herase : xs.erase a = xs.filter fun x => f x ≠ f a := by
    rw [hnodup.of_map.erase_eq_filter]
    refine List.filter_congr fun x hx => ?_
    have hinj : f x = f a ↔ x = a :=
      ⟨fun heq => List.inj_on_of_nodup_map hnodup hx hmem heq, fun heq => heq ▸ rfl⟩
    rw [Bool.eq_iff_iff]
    simp [hinj]
  rw [← herase]
  exact List.perm_cons_erase hmem

/-- An accepted result takes the place of its spec. -/
theorem discoveries_accept {spec : ExperimentSpec} (hnodup : s.pendingExperimentIds.Nodup)
    (hacc : Accepted s result spec) : discoveries (acceptResult s spec result) = discoveries s := by
  have hperm := perm_cons_others hnodup hacc.pending
  have htype := expectedType_of_valid hacc.valid
  unfold discoveries
  rw [hperm.countP_eq, List.countP_cons, hacc.id]
  cases result with
  | discovery r =>
    simp only [expectedTypeMatches, decide_eq_true_eq] at htype
    simp only [acceptResult, EvidenceBundle.add, List.length_append, List.length_singleton, htype,
      decide_true, if_true]
    omega
  | trace r =>
    have hkind : spec.kind ≠ .kernelDiscovery := by
      intro hkind
      simp [expectedTypeMatches, hkind] at htype
    simp [acceptResult, EvidenceBundle.add, hkind]
  | sanitizer r | stress r | reduction r =>
    have hkind : spec.kind ≠ .kernelDiscovery := by
      intro hkind
      simp [expectedTypeMatches, hkind] at htype
    simp [acceptResult, EvidenceBundle.add, hkind]

theorem waits_of_context {spec : ExperimentSpec}
    (hcontext : validateSpecContext s spec = .ok ()) :
    (spec.phase = .initial ∧ s.status = .waitingInitial) ∨
      (spec.phase = .followup ∧ s.status = .waitingFollowup) := by
  obtain ⟨-, -, hcontext⟩ := bind_ok hcontext
  obtain ⟨-, -, hcontext⟩ := bind_ok hcontext
  cases hphase : spec.phase with
  | initial =>
    rw [hphase] at hcontext
    obtain ⟨_, hstatus, -⟩ := bind_ok hcontext
    exact Or.inl ⟨rfl, by simpa using rejectIf_ok hstatus⟩
  | followup =>
    rw [hphase] at hcontext
    obtain ⟨_, hstatus, -⟩ := bind_ok hcontext
    exact Or.inr ⟨rfl, by simpa using rejectIf_ok hstatus⟩

theorem nodup_of_indexes {u : Unit} (hindexes : validateSessionResultIndexes s = .ok u) :
    s.pendingExperimentIds.Nodup := by
  obtain ⟨_, hnodup, -⟩ := bind_ok hindexes
  simpa using rejectIf_ok hnodup

/-- A session that waits for an experiment has no report. -/
theorem Accepted.waiting {spec : ExperimentSpec} (hacc : Accepted s result spec) : s.status.reported ≠ true := by
  rcases waits_of_context hacc.context with ⟨-, hwait⟩ | ⟨-, hwait⟩ <;>
    · rw [hwait]
      exact nofun

theorem experimentResult_lifecycle (hlife : Lifecycle s)
    (ht : recordExperimentResult s result = .ok t) : Lifecycle t.session := by
  obtain ⟨_, hindexes, -⟩ := bind_ok ht
  rcases experimentResult_cases ht with ⟨-, rfl⟩ | ⟨spec, hacc, ht⟩
  · exact hlife
  · have hreport : s.report = none := hlife.unreported hacc.waiting
    have hdiscoveries := discoveries_accept (nodup_of_indexes hindexes) hacc
    obtain ⟨-, rfl⟩ | ⟨-, status, reason, effects, hnext, rfl⟩ := continueSession_cases ht
    · refine lifecycle_unreported hreport hlife.triaged fun hplan => ?_
      obtain ⟨h1, h2, h3, honce⟩ := hlife.discovering hplan
      exact ⟨h1, h2, h3, fun hwait => hdiscoveries.trans (honce hwait)⟩
    · cases hnext with
      | failed => exact lifecycle_without_report rfl hreport
      | children =>
        exact lifecycle_unreported hreport (fun hwait => hwait.elim nofun nofun)
          fun _ => ⟨nofun, nofun, nofun, nofun⟩
      | triage hplan =>
        exact lifecycle_unreported hreport (fun hwait => hwait.elim nofun nofun) fun hsome => absurd hsome hplan
      | reasoner hplan hphase =>
        refine lifecycle_unreported hreport (fun _ => hlife.triaged (Or.inr ?_)) fun hsome => absurd hsome hplan
        rcases waits_of_context hacc.context with ⟨hinitial, -⟩ | ⟨-, hwait⟩
        · exact nomatch hinitial.symm.trans hphase
        · exact hwait

/-! ### Decisions -/

theorem triageDecision_lifecycle {decision : TriageDecision} (hlife : Lifecycle s)
    (ht : recordTriageDecision s decision = .ok t) : Lifecycle t.session := by
  obtain ⟨hwait, ⟨status, report, hreported, hrefs, rfl⟩ | ⟨hanalyze, rfl⟩⟩ := triageDecision_cases ht
  · refine lifecycle_reported hreported rfl ?_
    rw [hrefs]
    exact fun _ href => href
  · refine lifecycle_unreported (hlife.unreported (by rw [hwait]; exact nofun))
      (fun _ => ⟨decision, rfl, hanalyze⟩) fun hplan => ?_
    exact absurd hwait (hlife.discovering hplan).not_triaged

variable {decision : AnalysisDecision}

theorem analysisDecision_lifecycle (hlife : Lifecycle s)
    (ht : recordAnalysisDecision h guard s decision = .ok t) : Lifecycle t.session := by
  obtain ⟨hwait, u, hu, ⟨status, report, reason, hreported, hrefs, -, rfl⟩ | ⟨guarded, -, rfl⟩⟩ :=
    analysisDecision_cases ht
  · rw [hu.eq]
    exact lifecycle_reported hreported rfl hrefs
  · rw [hu.eq]
    refine lifecycle_unreported (hlife.unreported (by rw [hwait]; exact nofun))
      (fun _ => hlife.triaged (Or.inl hwait)) fun hplan => ?_
    exact absurd hwait (hlife.discovering hplan).not_analyzed

/-! ### Other transitions -/

theorem infrastructureFailure_lifecycle {reason : String} (hlife : Lifecycle s)
    (ht : recordInfrastructureFailure s reason = .ok t) : Lifecycle t.session := by
  obtain ⟨-, rfl⟩ | ⟨-, rfl⟩ := infrastructureFailure_cases ht
  · exact hlife
  · exact lifecycle_without_report rfl rfl

theorem discoveryChildrenStarted_lifecycle {ids : List String} (hlife : Lifecycle s)
    (ht : recordDiscoveryChildrenStarted s ids = .ok t) : Lifecycle t.session := by
  obtain rfl | ⟨hwait, reason, rfl⟩ := discoveryChildrenStarted_cases ht
  · exact hlife
  · exact lifecycle_without_report rfl (hlife.unreported (by rw [hwait]; exact nofun))

/-- Publication leaves the report as it is. -/
theorem Lifecycle.published (hlife : Lifecycle s) (publication : ReportPublicationStatus)
    (error : String) (artifact : Option ArtifactRef) :
    Lifecycle { s with
      reportPublication := publication, reportPublicationError := error,
      publishedReport := artifact } where
  reported := hlife.reported
  cites := hlife.cites
  triaged := hlife.triaged
  discovering hplan :=
    let ⟨h1, h2, h3, honce⟩ := hlife.discovering hplan
    ⟨h1, h2, h3, honce⟩

theorem reportPublished_lifecycle {artifact : Option ArtifactRef} (hlife : Lifecycle s)
    (ht : recordReportPublished s artifact = .ok t) : Lifecycle t.session := by
  obtain ⟨-, ⟨-, rfl⟩ | ⟨-, rfl⟩⟩ := reportPublished_cases ht
  · exact hlife
  · exact hlife.published _ _ _

theorem reportPublicationFailed_lifecycle {reason : String} (hlife : Lifecycle s)
    (ht : recordReportPublicationFailed s reason = .ok t) : Lifecycle t.session := by
  obtain ⟨-, ⟨-, rfl⟩ | ⟨-, rfl⟩⟩ := reportPublicationFailed_cases ht
  · exact hlife
  · exact hlife.published _ _ _

/-! ### Runs -/

theorem step_lifecycle {c : Command} (hlife : Lifecycle s)
    (ht : step h guard s c = .ok t) : Lifecycle t.session := by
  cases c with
  | experimentResult result => exact experimentResult_lifecycle hlife ht
  | triageDecision decision => exact triageDecision_lifecycle hlife ht
  | analysisDecision decision => exact analysisDecision_lifecycle hlife ht
  | discoveryChildrenStarted ids => exact discoveryChildrenStarted_lifecycle hlife ht
  | infrastructureFailure reason => exact infrastructureFailure_lifecycle hlife ht
  | reportPublished artifact => exact reportPublished_lifecycle hlife ht
  | reportPublicationFailed reason => exact reportPublicationFailed_lifecycle hlife ht

theorem reachable_lifecycle (hs : Reachable h guard s) : Lifecycle s := by
  induction hs with
  | session create => exact createSession_lifecycle create
  | discovery create => exact createDiscoverySession_lifecycle create
  | step _ accepted ih => exact step_lifecycle ih accepted

/-! ### Reports -/

inductive Created (h : Hashes) : AnalysisSession → Prop
  | session {sessionId unit budget policy shared t}
    (create : createSession h sessionId unit budget policy shared = .ok t) : Created h t.session
  | discovery {sessionId unit budget policy maxKernels t}
    (create : createDiscoverySession h sessionId unit budget policy maxKernels = .ok t) :
    Created h t.session

/-- Commands one after another, all of them accepted. -/
def run (h : Hashes) (guard : ExperimentGuardPolicy) (s : AnalysisSession) (cs : List Command) :
    Except ServiceError AnalysisSession :=
  cs.foldlM (fun s c => (step h guard s c).map Transition.session) s

theorem run_cons {c : Command} {cs : List Command} (hrun : run h guard s (c :: cs) = .ok s') :
    ∃ t, step h guard s c = .ok t ∧ run h guard t.session cs = .ok s' := by
  rw [run, List.foldlM_cons] at hrun
  obtain ⟨_, hstep, hrest⟩ := bind_ok hrun
  obtain ⟨t, ht, rfl⟩ := map_ok hstep
  exact ⟨t, ht, hrest⟩

theorem Created.reachable (hcreated : Created h s) : Reachable h guard s := by
  cases hcreated with
  | session create => exact .session create
  | discovery create => exact .discovery create

theorem reachable_run {cs : List Command} (hs : Reachable h guard s)
    (hrun : run h guard s cs = .ok s') : Reachable h guard s' := by
  induction cs generalizing s with
  | nil =>
    cases hrun
    exact hs
  | cons c cs ih =>
    obtain ⟨t, ht, hrest⟩ := run_cons hrun
    exact ih (.step hs ht) hrest

/-- A new session has no triage decision, and a report only where its budget is too small. -/
theorem created_new (hcreated : Created h s) : s.triage = none ∧
    (s.reportPublication = .notReady ∨ s.reportPublication = .pending ∧ s.status.reported = true) := by
  cases hcreated with
  | session create =>
    obtain ⟨-, -, create⟩ := bind_ok create
    obtain ⟨state, -, create⟩ := bind_ok create
    split at create
    · cases create
      exact ⟨rfl, Or.inr ⟨rfl, rfl⟩⟩
    · cases create
      exact ⟨rfl, Or.inl rfl⟩
  | discovery create =>
    obtain ⟨-, -, create⟩ := bind_ok create
    obtain ⟨-, -, create⟩ := bind_ok create
    dsimp only at create
    split at create
    · cases create
      exact ⟨rfl, Or.inr ⟨rfl, rfl⟩⟩
    · cases create
      exact ⟨rfl, Or.inl rfl⟩

/-- Only a triage decision changes what is recorded of it. -/
theorem step_triage {c : Command} (ht : step h guard s c = .ok t) :
    t.session.triage = s.triage ∨
      ∃ decision, c = .triageDecision decision ∧ t.session.triage = some decision := by
  cases c with
  | experimentResult result =>
    obtain ⟨-, rfl⟩ | ⟨spec, -, ht⟩ := experimentResult_cases ht
    · exact Or.inl rfl
    · obtain ⟨-, rfl⟩ | ⟨-, status, reason, effects, -, rfl⟩ := continueSession_cases ht <;> exact Or.inl rfl
  | triageDecision decision =>
    refine Or.inr ⟨decision, rfl, ?_⟩
    obtain ⟨-, ⟨status, report, -, -, rfl⟩ | ⟨-, rfl⟩⟩ := triageDecision_cases ht <;> rfl
  | analysisDecision decision =>
    obtain ⟨-, u, hu, ⟨status, report, reason, -, -, -, rfl⟩ | ⟨guarded, -, rfl⟩⟩ := analysisDecision_cases ht <;>
      · rw [hu.eq]
        exact Or.inl rfl
  | discoveryChildrenStarted ids =>
    obtain rfl | ⟨-, reason, rfl⟩ := discoveryChildrenStarted_cases ht <;> exact Or.inl rfl
  | infrastructureFailure reason =>
    obtain ⟨-, rfl⟩ | ⟨-, rfl⟩ := infrastructureFailure_cases ht <;> exact Or.inl rfl
  | reportPublished artifact =>
    obtain ⟨-, ⟨-, rfl⟩ | ⟨-, rfl⟩⟩ := reportPublished_cases ht <;> exact Or.inl rfl
  | reportPublicationFailed reason =>
    obtain ⟨-, ⟨-, rfl⟩ | ⟨-, rfl⟩⟩ := reportPublicationFailed_cases ht <;> exact Or.inl rfl

theorem run_triage {cs : List Command} {decision : TriageDecision}
    (hrun : run h guard s cs = .ok s') (htriage : s'.triage = some decision) :
    s.triage = some decision ∨ .triageDecision decision ∈ cs := by
  induction cs generalizing s with
  | nil =>
    cases hrun
    exact Or.inl htriage
  | cons c cs ih =>
    obtain ⟨t, ht, hrest⟩ := run_cons hrun
    rcases ih hrest with hold | hlater
    · rcases step_triage ht with hsame | ⟨decision', rfl, hnew⟩
      · exact Or.inl (hsame.symm.trans hold)
      · rw [Option.some.inj (hold.symm.trans hnew)]
        exact Or.inr List.mem_cons_self
    · exact Or.inr (List.mem_cons_of_mem c hlater)

/-- A decision completes a session only with a report that passed the gate. -/
theorem analysisDecision_completed (ht : recordAnalysisDecision h guard s decision = .ok t)
    (hcompleted : t.session.status = .completed) :
    s.status = .waitingReasoner ∧
      ∃ report, t.session.report = some report ∧ ReportGate t.session report := by
  obtain ⟨hwait, u, hu, ⟨status, report, reason, -, -, hgate, rfl⟩ | ⟨guarded, -, rfl⟩⟩ := analysisDecision_cases ht
  · obtain ⟨hsufficient, hknown, hexplained, hordered⟩ := hgate hcompleted
    rw [hu.eq]
    exact ⟨hwait, report, rfl, hsufficient, hknown, hexplained, hordered⟩
  · cases hcompleted

/-- A report cites what the session holds, and the reasoner completes a session only
after a triage decision to analyze, with a report that passes the gate. -/
theorem reports_supported (h : Hashes) (guard : ExperimentGuardPolicy) (s₀ s : AnalysisSession)
    (cs : List Command) (hcreated : Created h s₀) (hrun : run h guard s₀ cs = .ok s) :
    (∀ report, s.report = some report →
      ∀ ref ∈ report.evidenceRefs, ref ∈ artifactRefs s.evidence) ∧
    ∀ decision t, recordAnalysisDecision h guard s decision = .ok t →
      t.session.status = .completed →
      ∃ triage report, .triageDecision triage ∈ cs ∧ triage.outcome = .analyze ∧
        t.session.report = some report ∧ ReportGate t.session report := by
  have hlife := reachable_lifecycle (reachable_run hcreated.reachable hrun)
  refine ⟨hlife.cites, fun decision t ht hcompleted => ?_⟩
  obtain ⟨hwait, report, hreport, hgate⟩ := analysisDecision_completed ht hcompleted
  obtain ⟨triage, htriage, hanalyze⟩ := hlife.triaged (Or.inl hwait)
  refine ⟨triage, report, ?_, hanalyze, hreport, hgate⟩
  rcases run_triage hrun htriage with hold | hmem
  · exact nomatch (created_new hcreated).1.symm.trans hold
  · exact hmem

theorem raceReport_supported : ∃ s₀ s t, Created racecheckDigest s₀ ∧
    run racecheckDigest .default s₀ [.experimentResult (.sanitizer racecheckFinding),
      .triageDecision ⟨.analyze, "finding"⟩] = .ok s ∧
    recordAnalysisDecision racecheckDigest .default s raceDecision = .ok t ∧
    ∃ report, t.session.report = some report ∧ ReportGate t.session report := by
  obtain ⟨t₀, ht₀⟩ : ∃ t, createSession racecheckDigest "s1" vectorAdd SessionBudget.default
      InitialCampaignPolicy.sanitizerOnly [] = .ok t := ⟨_, rfl⟩
  obtain ⟨s, hs⟩ : ∃ s, run racecheckDigest .default t₀.session
      [.experimentResult (.sanitizer racecheckFinding), .triageDecision ⟨.analyze, "finding"⟩] =
        .ok s := by
    cases ht₀
    exact ⟨_, rfl⟩
  obtain ⟨t, ht, hcompleted⟩ : ∃ t, recordAnalysisDecision racecheckDigest .default s raceDecision =
      .ok t ∧ t.session.status = .completed := by
    cases ht₀
    cases hs
    exact ⟨_, rfl, rfl⟩
  have hsupported := reports_supported racecheckDigest .default t₀.session s _ (.session ht₀) hs
  obtain ⟨-, report, -, -, hreport, hgate⟩ := hsupported.2 raceDecision t ht hcompleted
  exact ⟨t₀.session, s, t, .session ht₀, hs, ht, report, hreport, hgate⟩

end CuTracer.Service
