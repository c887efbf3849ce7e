import CuTracer.Service.Coverage

/-! Runs of sessions that share a store of baselines. Every key in the store was reported
under its scope by a session that covered the scope and whose sufficient report was
published, so a campaign that is finished repeats what was reported before, or what an
active rule hides. -/

namespace CuTracer.Service

/-! ### Recording -/

def ScopeTriageSnapshot.baseline (s : ScopeTriageSnapshot) (sourceRevision : String)
    (today : YmdDate) : Option ScopeBaseline :=
  baselineFromScope s.scope (s.observedKeys ++ s.newKeys ++ s.unchangedKeys)
    (s.completeness = .complete) sourceRevision today

def Baselines.record (store : Baselines) : Option ScopeBaseline → Baselines
  | none => store
  | some baseline => Function.update store baseline.scope (some baseline)

/-- A sufficient report of a triaged session was delivered. -/
def AnalysisSession.delivered (session : AnalysisSession) : Bool :=
  session.status = .completed && session.reportPublication = .published &&
    (session.report.any fun report => report.evidenceSufficiency = .sufficient) &&
    session.triage.any fun decision => decision.outcome ≠ .inconclusive

/-- `TriagePolicy.record_published_baselines` of a session whose triage has a snapshot. -/
def recordPublishedBaselines (policy : TriagePolicy) (session : AnalysisSession)
    (snapshot : TriageSnapshot) (store : Baselines) : Baselines :=
  if policy.baselines && policy.recordBaselines && session.delivered then
    match policy.today with
    | none => store
    | some today => snapshot.scopes.foldl
        (fun store s => store.record (s.baseline session.unit.sourceRevision today)) store
  else store

/-! ### Runs -/

structure Decided where
  session : AnalysisSession
  verdict : TriageVerdict

structure Recorded where
  session : AnalysisSession
  decided : Decided

structure Campaigns where
  store : Baselines := fun _ => none
  decided : List Decided := []
  recorded : List Recorded := []

section

variable (search : String → String → Bool) (policy : TriagePolicy)

/-- What the calls of sessions can reach. A session that is recorded carries a decision
that was made for it, and may have changed otherwise. -/
inductive Reached : Campaigns → Prop where
  | start : Reached {}
  | decide {c : Campaigns} (h : Reached c) (session : AnalysisSession) :
      Reached { c with decided :=
        c.decided ++ [⟨session, decideTriage search policy c.store session⟩] }
  | record {c : Campaigns} (h : Reached c) (session : AnalysisSession) (d : Decided)
      (hd : d ∈ c.decided) (hid : session.sessionId = d.session.sessionId)
      (hunit : session.unit = d.session.unit)
      (htriage : session.triage = some d.verdict.toTriageDecision) :
      Reached { c with
        store := recordPublishedBaselines policy session d.verdict.snapshot c.store
        recorded := c.recorded ++ [⟨session, d⟩] }

/-- A recorded session reported a key under a scope that it covered, in a sufficient report
that was published. -/
structure Observed (r : Recorded) (family tool key : String) : Prop where
  family : testFamily r.session.unit.testId = family
  reports : policy.Reports search r.decided.session tool key
  complete : CompleteIn r.decided.verdict.snapshot tool
  delivered : r.session.delivered = true

/-- Every decision was made against some store, and every key in the store was observed. -/
structure Grounded (c : Campaigns) : Prop where
  decided : ∀ d ∈ c.decided, ∃ store, d.verdict = decideTriage search policy store d.session
  store : ∀ scope b, c.store scope = some b → ∀ key ∈ b.correlationKeys,
    ∃ r ∈ c.recorded, Observed search policy r scope.testFamily scope.tool key

variable {search policy}

/-- What a record leaves in the store was there, or is of a complete scope of the snapshot. -/
theorem foldl_record {scopes : List ScopeTriageSnapshot} {revision : String} {today : YmdDate}
    {store : Baselines} {scope : ScopeId} {b : ScopeBaseline}
    (h : scopes.foldl (fun store s => store.record (s.baseline revision today)) store scope =
      some b) :
    store scope = some b ∨ ∃ s ∈ scopes, s.scope = scope ∧ s.completeness = .complete ∧
      b.correlationKeys = sortedSet (s.observedKeys ++ s.newKeys ++ s.unchangedKeys) := by
  induction scopes generalizing store with
  | nil => exact .inl h
  | cons s rest ih =>
    obtain hstore | ⟨t, ht, hrest⟩ := ih h
    · change store.record (s.baseline revision today) scope = some b at hstore
      by_cases hcomplete : s.completeness = .complete
      · have hbaseline : s.baseline revision today = some ⟨s.scope,
            sortedSet (s.observedKeys ++ s.newKeys ++ s.unchangedKeys), revision, today⟩ :=
          if_pos (decide_eq_true hcomplete)
        rw [hbaseline, Baselines.record] at hstore
        by_cases hscope : scope = s.scope
        · subst hscope
          rw [Function.update_self] at hstore
          cases hstore
          exact .inr ⟨s, List.mem_cons_self, rfl, hcomplete, rfl⟩
        · rw [Function.update_of_ne hscope] at hstore
          exact .inl hstore
      · have hbaseline : s.baseline revision today = none :=
          if_neg fun hc => hcomplete (of_decide_eq_true hc)
        rw [hbaseline] at hstore
        exact .inl hstore
    · exact .inr ⟨t, List.mem_cons_of_mem s ht, hrest⟩

variable {session : AnalysisSession}

theorem recordPublishedBaselines_cases {snapshot : TriageSnapshot} {store : Baselines}
    {scope : ScopeId} {b : ScopeBaseline}
    (h : recordPublishedBaselines policy session snapshot store scope = some b) :
    store scope = some b ∨ policy.baselines = true ∧ session.delivered = true ∧
      ∃ s ∈ snapshot.scopes, s.scope = scope ∧ s.completeness = .complete ∧
        b.correlationKeys = sortedSet (s.observedKeys ++ s.newKeys ++ s.unchangedKeys) := by
  unfold recordPublishedBaselines at h
  by_cases hguard : (policy.baselines && policy.recordBaselines && session.delivered) = true
  · rw [if_pos hguard] at h
    simp only [Bool.and_eq_true] at hguard
    cases htoday : policy.today with
    | none =>
      rw [htoday] at h
      exact .inl h
    | some today =>
      rw [htoday] at h
      exact (foldl_record h).imp_right fun hs => ⟨hguard.1.1, hguard.2, hs⟩
  · rw [if_neg hguard] at h
    exact .inl h

/-- What a scope of a decision's snapshot would record is what it reports. -/
theorem reports_of_recordedKey {store : Baselines} (hbaselines : policy.baselines = true)
    {s : ScopeTriageSnapshot} (hs : s ∈ (decideTriage search policy store session).snapshot.scopes)
    {key : String} (hkey : key ∈ s.observedKeys ++ s.newKeys ++ s.unchangedKeys) :
    s.scope.testFamily = testFamily session.unit.testId ∧
      policy.Reports search session s.scope.tool key := by
  rw [decideTriage_snapshot, TriagePolicy.comparedWith, if_pos hbaselines] at hs
  obtain ⟨tool, -, rfl⟩ := List.mem_map.mp hs
  rw [scopeSnapshot_scope]
  exact ⟨rfl, (mem_keysByScope_correlate search policy session).mp (mem_recordedKeys.mp hkey)⟩

theorem Reached.grounded {c : Campaigns} (h : Reached search policy c) :
    Grounded search policy c := by
  induction h with
  | start => exact ⟨by simp, by simp⟩
  | decide h session ih =>
    refine ⟨fun d hd => ?_, ih.store⟩
    obtain hd | hd := List.mem_append.mp hd
    · exact ih.decided d hd
    · rw [List.mem_singleton.mp hd]
      exact ⟨_, rfl⟩
  | record h session d hd hid hunit htriage ih =>
    refine ⟨ih.decided, fun scope b hb key hkey => ?_⟩
    obtain hb | ⟨hbaselines, hdelivered, s, hs, rfl, hcomplete, hkeys⟩ :=
      recordPublishedBaselines_cases hb
    · obtain ⟨r, hr, hobserved⟩ := ih.store scope b hb key hkey
      exact ⟨r, List.mem_append_left _ hr, hobserved⟩
    · obtain ⟨store, hverdict⟩ := ih.decided d hd
      rw [hkeys, mem_sortedSet] at hkey
      have hs' := hs
      rw [hverdict] at hs'
      obtain ⟨hfamily, hreports⟩ := reports_of_recordedKey hbaselines hs' hkey
      refine ⟨⟨session, d⟩, List.mem_append_right _ (List.mem_singleton_self _), ?_, hreports, ?_,
        hdelivered⟩
      · rw [hfamily, hunit]
      · exact ⟨s, hs, rfl, hcomplete⟩

/-! ### What a finish leaves out -/

/-- An active rule hides the finding, and the decision has the audit entry. -/
def Hidden (policy : TriagePolicy) (search : String → String → Bool) (verdict : TriageVerdict)
    (f : FindingRecord) : Prop :=
  ∃ rule ∈ policy.suppression.getD defaultSuppressionRules, ruleIsActive rule policy.date = true ∧
    ruleMatches search rule f = true ∧
      (⟨f, rule.decision⟩ : SuppressedFinding).auditEntry ∈ verdict.snapshot.suppressionAudit

theorem hidden_of_not_kept {store : Baselines} {f : FindingRecord}
    (hf : f ∈ session.evidence.findings) (hkept : f ∉ policy.kept search session) :
    Hidden policy search (decideTriage search policy store session) f := by
  obtain ⟨rule, hrule, hactive, hmatches, hmem⟩ := suppressed_of_not_kept search hf hkept
  refine ⟨rule, hrule, hactive, hmatches, ?_⟩
  rw [decideTriage_snapshot, triageSnapshot, TriagePolicy.correlate, correlateEvidence_suppressed]
  exact List.mem_map.mpr ⟨_, hmem, rfl⟩

/-- Whatever is reported when a campaign is finished was reported before. -/
theorem known_of_finish {c : Campaigns} (h : Reached search policy c)
    (hfinish : (decideTriage search policy c.store session).outcome = .finish) {tool key : String}
    (hreports : policy.Reports search session tool key) :
    ∃ r ∈ c.recorded,
      Observed search policy r (testFamily session.unit.testId) tool key := by
  rw [decideTriage_outcome, outcomeFor_eq_finish] at hfinish
  obtain ⟨-, ⟨hactionable, -⟩ | ⟨-, -, ⟨-, hknown⟩, -⟩⟩ := hfinish
  · obtain ⟨hkept, hsignals, -⟩ := (not_actionable search).mp hactionable
    obtain ⟨source, -, ⟨f, hf, -⟩ | ⟨r, hr, -⟩⟩ := hreports
    · rw [TriagePolicy.kept, hkept] at hf
      cases hf
    · rw [hsignals] at hr
      cases hr
  · obtain ⟨b, hb, hkey⟩ := hknown tool key hreports
    exact h.grounded.store _ b hb key hkey

/-- When a campaign is finished, every finding of it is hidden by an active rule or was
reported before under its scope, and so was every open summary, unless a finding that is
kept has the very key of the summary. -/
theorem finish_repeats {c : Campaigns} (h : Reached search policy c) {session : AnalysisSession}
    (hfinish : (decideTriage search policy c.store session).outcome = .finish) :
    (∀ f ∈ session.evidence.findings,
      Hidden policy search (decideTriage search policy c.store session) f ∨
        ∃ r ∈ c.recorded, Observed search policy r (testFamily session.unit.testId)
          (lastComponent f.sourceTool) (correlationKey f)) ∧
      ∀ signal ∈ activeSanitizerSignals session.evidence,
        (∀ f ∈ policy.kept search session, correlationKey f ≠ signal.summaryKey) →
          ∃ r ∈ c.recorded, Observed search policy r (testFamily session.unit.testId)
            (lastComponent signal.sourceTool) signal.summaryKey := by
  constructor
  · intro f hf
    by_cases hkept : f ∈ policy.kept search session
    · exact .inr (known_of_finish h hfinish ⟨f.sourceTool, rfl, .inl ⟨f, hkept, rfl, rfl⟩⟩)
    · exact .inl (hidden_of_not_kept hf hkept)
  · intro signal hsignal hnew
    exact known_of_finish h hfinish
      ⟨signal.sourceTool, rfl, .inr ⟨signal, hsignal, rfl, rfl, hnew⟩⟩

end

/-- A policy that hides nothing and records what was published. -/
def recordingPolicy : TriagePolicy where
  baselines := true
  suppression := some []
  today := some ⟨"2026-09-10", by decide +kernel⟩
  recordBaselines := true
  records_dated := fun _ _ => rfl

variable (evidence : EvidenceBundle)

def triaged : AnalysisSession := { raceSession with evidence }

/-- A campaign that was decided against an empty store and recorded. -/
def recordedSession : AnalysisSession :=
  { raceSession with
    evidence
    status := .completed
    reportPublication := .published
    triage := some (decideTriage (fun _ _ => false) recordingPolicy (fun _ => none)
      (triaged evidence)).toTriageDecision
    report := some
      { rootCause := ""
        raceClass := .unknown
        confidence := .l
        isReproduced := false
        crossValidation := ⟨true, ""⟩
        evidenceSufficiency := .sufficient
        evidenceRefs := []
        recommendedAction := ""
        rawAiOutput := "" } }

def firstDecided : Decided where
  session := triaged evidence
  verdict := decideTriage (fun _ _ => false) recordingPolicy (fun _ => none)
    (triaged evidence)

def oneCampaign : Campaigns where
  store := recordPublishedBaselines recordingPolicy (recordedSession evidence)
    (firstDecided evidence).verdict.snapshot fun _ => none
  decided := [firstDecided evidence]
  recorded := [⟨recordedSession evidence, firstDecided evidence⟩]

theorem reached_oneCampaign (evidence : EvidenceBundle) :
    Reached (fun _ _ => false) recordingPolicy (oneCampaign evidence) :=
  .record (.decide .start (triaged evidence)) (recordedSession evidence)
    (firstDecided evidence) (List.mem_singleton_self _) rfl rfl rfl

def raceEvidence : EvidenceBundle := { EvidenceBundle.empty with sanitizer := [raceResult] }

theorem finish_repeats_small :
    (decideTriage (fun _ _ => false) recordingPolicy (oneCampaign raceEvidence).store
        (triaged raceEvidence)).outcome = .finish ∧
      ∀ f ∈ raceEvidence.findings,
        Hidden recordingPolicy (fun _ _ => false)
            (decideTriage (fun _ _ => false) recordingPolicy (oneCampaign raceEvidence).store
              (triaged raceEvidence)) f ∨
          ∃ r ∈ (oneCampaign raceEvidence).recorded,
            Observed (fun _ _ => false) recordingPolicy r (testFamily raceUnit.testId)
              (lastComponent f.sourceTool) (correlationKey f) := by
  have hfinish : (decideTriage (fun _ _ => false) recordingPolicy (oneCampaign raceEvidence).store
      (triaged raceEvidence)).outcome = .finish := by
    decide +kernel
  exact ⟨hfinish, (finish_repeats (reached_oneCampaign raceEvidence) hfinish).1⟩

/-- A memcheck finding whose key is that of the racecheck summary beside it. -/
def shadowingEvidence : EvidenceBundle :=
  { EvidenceBundle.empty with
    sanitizer :=
      [{ raceResult with
         tool := "memcheck"
         findings := [{ knownRace with
           sourceTool := "compute_sanitizer/memcheck"
           errorType := "compute_sanitizer/racecheck"
           kernelName := some "<unattributed-summary>" }] },
       { raceResult with
         findings := []
         summary := some ⟨1, 1, 0, "", none⟩ }] }

/-- The summary of a tool whose key a finding has is finished without being reported. -/
theorem finish_of_shadowed_summary :
    ¬∀ search policy c session, Reached search policy c →
      (decideTriage search policy c.store session).outcome = .finish →
        ∀ signal ∈ activeSanitizerSignals session.evidence, ∃ r ∈ c.recorded,
          Observed search policy r (testFamily session.unit.testId)
            (lastComponent signal.sourceTool) signal.summaryKey := by
  intro h
  have hfinish : (decideTriage (fun _ _ => false) recordingPolicy
      (oneCampaign shadowingEvidence).store
      (triaged shadowingEvidence)).outcome = .finish := by
    decide +kernel
  obtain ⟨r, hr, hobserved⟩ := h _ _ _ _ (reached_oneCampaign shadowingEvidence) hfinish
    { raceResult with findings := [], summary := some ⟨1, 1, 0, "", none⟩ } (by decide +kernel)
  rw [List.mem_singleton.mp hr] at hobserved
  have hreports := (mem_keysByScope_correlate _ _ _).mpr hobserved.reports
  exact absurd hreports (by decide +kernel)

end CuTracer.Service
