import CuTracer.Service.Correlate
import CuTracer.Service.Session

/-! The deterministic step before any reasoning. It checks that every tool covered its
scope, compares what is reported with the baseline of each scope, and decides whether a
campaign is analyzed, finished or inconclusive. A baseline is only made of a complete
scope, and only recorded after a sufficient report was published. -/

namespace CuTracer.Service

/-! ### Baselines -/

inductive BaselineVerdict where
  | notEvaluated | noBaseline | new | resolved | unchanged
  deriving DecidableEq

structure ScopeId where
  testFamily : String
  tool : String
  deriving DecidableEq

def ScopeId.key (scope : ScopeId) : String := scope.testFamily ++ "::" ++ scope.tool

/-- What the last complete campaign for a scope reported. -/
structure ScopeBaseline where
  scope : ScopeId
  correlationKeys : List String
  sourceRevision : String
  recordedOn : YmdDate

/-- A partial campaign has no baseline. -/
def baselineFromScope (scope : ScopeId) (correlationKeys : List String) (isComplete : Bool)
    (sourceRevision : String) (recordedOn : YmdDate) : Option ScopeBaseline :=
  if isComplete then some ⟨scope, sortedSet correlationKeys, sourceRevision, recordedOn⟩
  else none

structure BaselineDiff where
  scope : ScopeId
  verdict : BaselineVerdict
  newKeys : List String := []
  resolvedKeys : List String := []
  unchangedKeys : List String := []
  observedKeys : List String := []

def diffAgainstBaseline (scope : ScopeId) (current : List String) :
    Option ScopeBaseline → BaselineDiff
  | none => { scope, verdict := .noBaseline, observedKeys := sortedSet current }
  | some baseline =>
    let new := current.filter (· ∉ baseline.correlationKeys)
    let resolved := baseline.correlationKeys.filter (· ∉ current)
    let unchanged := current.filter (· ∈ baseline.correlationKeys)
    { scope
      verdict := if new ≠ [] then .new else if resolved ≠ [] then .resolved else .unchanged
      newKeys := sortedSet new
      resolvedKeys := sortedSet resolved
      unchangedKeys := sortedSet unchanged }

abbrev Baselines := ScopeId → Option ScopeBaseline

/-! ### Snapshots -/

structure ScopeTriageSnapshot where
  scope : ScopeId
  completeness : ResultCompleteness
  baselineVerdict : BaselineVerdict
  observedKeys : List String
  newKeys : List String
  resolvedKeys : List String
  unchangedKeys : List String

structure SuppressionAuditEntry where
  findingKey : String
  sourceTool : String
  errorType : String
  kernelName : Option String
  source : Option SourceLoc
  decision : SuppressionDecision

structure TriageSnapshot where
  scopes : List ScopeTriageSnapshot
  stressCompleteness : ResultCompleteness
  suppressionAudit : List SuppressionAuditEntry
  unique : (scopes.map fun s => s.scope.key).Nodup

structure TriageVerdict extends TriageDecision where
  snapshot : TriageSnapshot

/-! ### Completeness -/

/-- The labels of the findings that name another tool. -/
def conflictingTools (r : SanitizerSweepResult) : List String :=
  (r.findings.map fun f => lastComponent f.sourceTool).filter (· ≠ r.tool)

/-- What a result proves about the scope of its tool. -/
def observedCompleteness (r : SanitizerSweepResult) : ResultCompleteness :=
  if conflictingTools r ≠ [] then .unknown
  else if r.completeness = .complete ∧ r.executionStatus ≠ .succeeded then .unknown
  else r.completeness

def addCompleteness (complete : Dict String ResultCompleteness) (r : SanitizerSweepResult) :
    Dict String ResultCompleteness :=
  ((conflictingTools r).foldl (fun complete tool => complete.insert tool .unknown) complete).upsert
    r.tool fun previous =>
      match previous with
      | none => observedCompleteness r
      | some previous => if previous ≠ .complete then previous else observedCompleteness r

def scopeCompleteness (results : List SanitizerSweepResult) : Dict String ResultCompleteness :=
  results.foldl addCompleteness .empty

def aggregateCompleteness (values : List ResultCompleteness) : ResultCompleteness :=
  if values = [] then .unknown
  else if values.all (· = .complete) then .complete
  else if values.all fun v => v = .complete || v = .completeEarly then .completeEarly
  else if values.all (· = .skipped) then .skipped
  else .partialRun

/-! ### The policy -/

/-- A policy that records baselines has a date to record them under. -/
structure TriagePolicy where
  baselines : Bool
  suppression : Option (List SuppressionRule)
  today : Option YmdDate
  recordBaselines : Bool
  records_dated : recordBaselines = true → baselines = true → today.isSome

def TriagePolicy.date (policy : TriagePolicy) : Option Date :=
  policy.today.bind fun today => parseYmdDate today

def keysByScope (entries : List CorrelatedFinding) : Dict String (List String) :=
  .collect (entries.flatMap fun entry =>
    entry.tools.map fun tool => (lastComponent tool, entry.correlationKey))

def snapshotTools (results : List SanitizerSweepResult) (entries : List CorrelatedFinding) :
    List String :=
  sortedSet ((scopeCompleteness results).keys ++ (keysByScope entries).keys)

/-- A scope with its diff, or with its keys alone where the policy has no baselines. -/
def scopeSnapshot (baselines : Option Baselines) (family : String)
    (results : List SanitizerSweepResult) (entries : List CorrelatedFinding) (tool : String) :
    ScopeTriageSnapshot :=
  let scope : ScopeId := ⟨family, tool⟩
  let keys := ((keysByScope entries).get? tool).getD []
  let completeness := ((scopeCompleteness results).get? tool).getD .unknown
  match baselines with
  | none => ⟨scope, completeness, .notEvaluated, sortedSet keys, [], [], []⟩
  | some store =>
    let diff := diffAgainstBaseline scope keys (store scope)
    ⟨scope, completeness, diff.verdict, diff.observedKeys, diff.newKeys, diff.resolvedKeys,
      diff.unchangedKeys⟩

@[simp] theorem scopeSnapshot_scope (baselines : Option Baselines) (family : String)
    (results : List SanitizerSweepResult) (entries : List CorrelatedFinding) (tool : String) :
    (scopeSnapshot baselines family results entries tool).scope = ⟨family, tool⟩ := by
  cases baselines <;> rfl

theorem scopeKey_injective (family : String) :
    Function.Injective fun tool => (⟨family, tool⟩ : ScopeId).key := by
  intro a b h
  have hlist := congrArg String.toList h
  simp only [ScopeId.key, String.toList_append] at hlist
  exact String.toList_inj.mp (List.append_cancel_left hlist)

def SuppressedFinding.auditEntry (s : SuppressedFinding) : SuppressionAuditEntry where
  findingKey := correlationKey s.finding
  sourceTool := s.finding.sourceTool
  errorType := s.finding.errorType
  kernelName := s.finding.kernelName
  source := s.finding.source
  decision := s.decision

def triageSnapshot (baselines : Option Baselines) (session : AnalysisSession)
    (triage : TriageResult) : TriageSnapshot where
  scopes := (snapshotTools session.evidence.sanitizer triage.correlatedFindings).map
    (scopeSnapshot baselines (testFamily session.unit.testId) session.evidence.sanitizer
      triage.correlatedFindings)
  stressCompleteness := aggregateCompleteness
    (session.evidence.stress.map StressTestResult.completeness)
  suppressionAudit := triage.suppressed.suppressed.map SuppressedFinding.auditEntry
  unique := by
    rw [List.map_map]
    refine List.Nodup.map ?_ (sortedSet_nodup _)
    intro a b h
    simp only [Function.comp_apply, scopeSnapshot_scope] at h
    exact scopeKey_injective _ h

variable (snapshot : TriageSnapshot)

def unprovenScopes : List String :=
  (snapshot.scopes.filter fun s => s.completeness ≠ .complete).map fun s => s.scope.key

def unprovenReason (unproven : List String) : String :=
  "scope coverage unproven: " ++ ", ".intercalate (sortedSet unproven)

def TriageSnapshot.introduced : List String :=
  snapshot.scopes.flatMap ScopeTriageSnapshot.newKeys

def TriageSnapshot.unbaselined : List String :=
  (snapshot.scopes.filter fun s => s.baselineVerdict = .noBaseline).flatMap
    ScopeTriageSnapshot.observedKeys

section

variable (search : String → String → Bool)

def TriagePolicy.correlate (policy : TriagePolicy) (session : AnalysisSession) : TriageResult :=
  correlateEvidence search session.unit.unitId session.evidence session.unit.testId
    policy.suppression policy.date

def TriagePolicy.comparedWith (policy : TriagePolicy) (store : Baselines) : Option Baselines :=
  if policy.baselines then some store else none

/-- The decision where nothing is actionable. -/
def decideQuiet (evidence : EvidenceBundle) (triage : TriageResult) (snapshot : TriageSnapshot) :
    TriageVerdict :=
  let unproven := unprovenScopes snapshot ++
    if evidence.stress.any fun r => !r.hasTrustworthyNonReproduction then ["random-delay stress"]
    else []
  if unproven ≠ [] then ⟨⟨.inconclusive, unprovenReason unproven⟩, snapshot⟩
  else
    let suppressed := triage.suppressed.suppressed.length
    let reason :=
      if suppressed ≠ 0 then "no actionable findings; " ++ toString suppressed ++ " suppressed"
      else "both initial sources are complete and clean"
    ⟨⟨.finish, reason⟩, snapshot⟩

def decideActive (policy : TriagePolicy) (triage : TriageResult) (snapshot : TriageSnapshot) :
    TriageVerdict :=
  if triage.correlatedFindings.any CorrelatedFinding.stressReproduced then
    ⟨⟨.analyze, "random-delay stress reproduced a correctness failure"⟩, snapshot⟩
  else if policy.baselines = false then
    ⟨⟨.analyze, toString triage.correlatedFindings.length ++ " findings, no baseline store"⟩,
      snapshot⟩
  else if snapshot.introduced ≠ [] then
    ⟨⟨.analyze, toString (sortedSet snapshot.introduced).length ++ " newly introduced findings"⟩,
      snapshot⟩
  else if snapshot.unbaselined ≠ [] then
    ⟨⟨.analyze, toString (sortedSet snapshot.unbaselined).length ++
      " findings with no baseline to compare"⟩, snapshot⟩
  else if unprovenScopes snapshot ≠ [] then
    ⟨⟨.inconclusive, unprovenReason (unprovenScopes snapshot)⟩, snapshot⟩
  else ⟨⟨.finish, "all findings are unchanged since the last complete baseline"⟩, snapshot⟩

/-- `TriagePolicy.decide` against what the store holds. -/
def decideTriage (policy : TriagePolicy) (store : Baselines) (session : AnalysisSession) :
    TriageVerdict :=
  let triage := policy.correlate search session
  let snapshot := triageSnapshot (policy.comparedWith store) session triage
  if initialEvidenceRequiresInconclusive session.evidence then
    ⟨⟨.inconclusive, "initial evidence is incomplete"⟩, snapshot⟩
  else if triage.shouldAnalyze = false then decideQuiet session.evidence triage snapshot
  else decideActive policy triage snapshot

end

/-! ### What is complete -/

/-- A result covers its scope: it ran to the end, succeeded, and names no other tool. -/
structure Covered (r : SanitizerSweepResult) : Prop where
  complete : r.completeness = .complete
  succeeded : r.executionStatus = .succeeded
  labelled : ∀ f ∈ r.findings, lastComponent f.sourceTool = r.tool

variable {r : SanitizerSweepResult}

theorem mem_conflictingTools {tool : String} :
    tool ∈ conflictingTools r ↔
      tool ≠ r.tool ∧ ∃ f ∈ r.findings, lastComponent f.sourceTool = tool := by
  simp [conflictingTools, and_comm]

theorem conflictingTools_eq_nil :
    conflictingTools r = [] ↔ ∀ f ∈ r.findings, lastComponent f.sourceTool = r.tool := by
  rw [List.eq_nil_iff_forall_not_mem]
  constructor
  · intro h f hf
    by_contra hne
    exact h _ (mem_conflictingTools.mpr ⟨hne, f, hf, rfl⟩)
  · intro h tool htool
    obtain ⟨hne, f, hf, rfl⟩ := mem_conflictingTools.mp htool
    exact hne (h f hf)

theorem observedCompleteness_eq_complete : observedCompleteness r = .complete ↔ Covered r := by
  unfold observedCompleteness
  by_cases hconflict : conflictingTools r = []
  · rw [if_neg (not_not.mpr hconflict)]
    by_cases hfailed : r.completeness = .complete ∧ r.executionStatus ≠ .succeeded
    · rw [if_pos hfailed]
      refine iff_of_false (by simp) fun h => hfailed.2 h.succeeded
    · rw [if_neg hfailed]
      constructor
      · intro hcomplete
        refine ⟨hcomplete, ?_, conflictingTools_eq_nil.mp hconflict⟩
        by_contra hne
        exact hfailed ⟨hcomplete, hne⟩
      · intro h
        exact h.complete
  · rw [if_pos hconflict]
    refine iff_of_false (by simp) fun h => hconflict (conflictingTools_eq_nil.mpr h.labelled)

theorem get?_foldl_insert_unknown (tools : List String) (d : Dict String ResultCompleteness)
    (tool : String) : (tools.foldl (fun d tool => d.insert tool .unknown) d).get? tool =
      if tool ∈ tools then some .unknown else d.get? tool := by
  induction tools generalizing d with
  | nil => simp
  | cons t ts ih =>
    rw [List.foldl_cons, ih, Dict.get?_insert]
    by_cases hmem : tool ∈ ts
    · simp [hmem]
    · by_cases ht : tool = t <;> simp [hmem, ht]

theorem get?_addCompleteness (d : Dict String ResultCompleteness) (r : SanitizerSweepResult)
    (tool : String) : (addCompleteness d r).get? tool =
      if tool = r.tool then
        some (match d.get? tool with
          | none => observedCompleteness r
          | some previous => if previous ≠ .complete then previous else observedCompleteness r)
      else if tool ∈ conflictingTools r then some .unknown else d.get? tool := by
  rw [addCompleteness, Dict.get?_upsert]
  have hown : r.tool ∉ conflictingTools r := fun h => (mem_conflictingTools.mp h).1 rfl
  by_cases htool : tool = r.tool
  · subst htool
    rw [if_pos rfl, if_pos rfl, get?_foldl_insert_unknown, if_neg hown]
  · rw [if_neg htool, if_neg htool, get?_foldl_insert_unknown]

def NamesTool (results : List SanitizerSweepResult) (tool : String) : Prop :=
  ∃ r ∈ results, r.tool = tool ∨ ∃ f ∈ r.findings, lastComponent f.sourceTool = tool

variable {results : List SanitizerSweepResult}

theorem namesTool_append {tool : String} :
    NamesTool (results ++ [r]) tool ↔ NamesTool results tool ∨
      r.tool = tool ∨ ∃ f ∈ r.findings, lastComponent f.sourceTool = tool := by
  simp only [NamesTool, List.mem_append, List.mem_singleton, or_and_right, exists_or,
    exists_eq_left]

theorem mem_keys_scopeCompleteness {tool : String} :
    tool ∈ (scopeCompleteness results).keys ↔ NamesTool results tool := by
  induction results using List.reverseRecOn with
  | nil => simp [scopeCompleteness, Dict.empty, Dict.keys, NamesTool]
  | append_singleton results r ih =>
    have hstep : scopeCompleteness (results ++ [r]) = addCompleteness (scopeCompleteness results) r := by
      simp only [scopeCompleteness, List.foldl_append, List.foldl_cons, List.foldl_nil]
    rw [hstep, namesTool_append, ← ih, Dict.mem_keys_iff, Dict.mem_keys_iff, get?_addCompleteness]
    by_cases htool : tool = r.tool
    · simp [htool]
    · rw [if_neg htool]
      by_cases hconflict : tool ∈ conflictingTools r
      · rw [if_pos hconflict]
        simp [(mem_conflictingTools.mp hconflict).2]
      · rw [if_neg hconflict]
        have hother : ¬∃ f ∈ r.findings, lastComponent f.sourceTool = tool := fun h =>
          hconflict (mem_conflictingTools.mpr ⟨htool, h⟩)
        simp [Ne.symm htool, hother]

/-- The results whose tool is `tool` cover it, and no other result names it. -/
def CoversTool (results : List SanitizerSweepResult) (tool : String) : Prop :=
  ∀ r ∈ results, (r.tool = tool → Covered r) ∧
    ∀ f ∈ r.findings, lastComponent f.sourceTool = tool → r.tool = tool

theorem coversTool_append {tool : String} :
    CoversTool (results ++ [r]) tool ↔ CoversTool results tool ∧
      (r.tool = tool → Covered r) ∧
        ∀ f ∈ r.findings, lastComponent f.sourceTool = tool → r.tool = tool := by
  simp only [CoversTool, List.mem_append, List.mem_singleton, or_imp, forall_and, forall_eq]
  tauto

/-- A tool is complete where some result names it, and all results that name it cover it. -/
theorem scopeCompleteness_eq_complete {tool : String} :
    (scopeCompleteness results).get? tool = some .complete ↔
      NamesTool results tool ∧ CoversTool results tool := by
  induction results using List.reverseRecOn with
  | nil => simp [scopeCompleteness, Dict.empty, Dict.get?, Dict.lookup, NamesTool]
  | append_singleton results r ih =>
    have hstep : scopeCompleteness (results ++ [r]) = addCompleteness (scopeCompleteness results) r := by
      simp only [scopeCompleteness, List.foldl_append, List.foldl_cons, List.foldl_nil]
    rw [hstep, namesTool_append, coversTool_append, get?_addCompleteness]
    by_cases htool : tool = r.tool
    · subst htool
      simp only [if_true, true_or, or_true, true_and, true_imp_iff, Option.some.injEq, implies_true,
        and_true]
      cases hold : (scopeCompleteness results).get? r.tool with
      | none =>
        have hunnamed : ¬NamesTool results r.tool := by
          rw [← mem_keys_scopeCompleteness]
          exact (Dict.get?_eq_none_iff _ _).mp hold
        have hcovers : CoversTool results r.tool := fun r' hr' =>
          ⟨fun h => absurd ⟨r', hr', .inl h⟩ hunnamed,
            fun f hf h => absurd ⟨r', hr', .inr ⟨f, hf, h⟩⟩ hunnamed⟩
        simp only [hcovers, true_and]
        exact observedCompleteness_eq_complete
      | some previous =>
        have hnamed : NamesTool results r.tool :=
          mem_keys_scopeCompleteness.mp (Dict.mem_keys_of_get? hold)
        rw [hold, Option.some.injEq, and_iff_right hnamed] at ih
        rw [← ih]
        by_cases hprevious : previous = .complete
        · simp only [hprevious, ne_eq, not_true_eq_false, if_false, true_and]
          exact observedCompleteness_eq_complete
        · simp only [hprevious, ne_eq, not_false_eq_true, if_true, false_and]
    · rw [if_neg htool]
      have hother : ¬r.tool = tool := Ne.symm htool
      by_cases hconflict : tool ∈ conflictingTools r
      · rw [if_pos hconflict]
        obtain ⟨-, f, hf, hlabel⟩ := mem_conflictingTools.mp hconflict
        refine iff_of_false (by simp) ?_
        rintro ⟨-, -, -, hlabels⟩
        exact hother (hlabels f hf hlabel)
      · rw [if_neg hconflict, ih]
        have hlabels : ∀ f ∈ r.findings, lastComponent f.sourceTool ≠ tool := fun f hf hlabel =>
          hconflict (mem_conflictingTools.mpr ⟨htool, f, hf, hlabel⟩)
        constructor
        · rintro ⟨hnamed, hcovers⟩
          exact ⟨.inl hnamed, hcovers, fun h => absurd h hother, fun f hf h => absurd h (hlabels f hf)⟩
        · rintro ⟨hnamed | hown | ⟨f, hf, hlabel⟩, hcovers, -⟩
          · exact ⟨hnamed, hcovers⟩
          · exact absurd hown hother
          · exact absurd hlabel (hlabels f hf)

/-! ### What a scope reports -/

def ScopeReports (kept : List FindingRecord) (signals : List SanitizerSweepResult)
    (tool key : String) : Prop :=
  ∃ source, lastComponent source = tool ∧ Reported kept signals source key

theorem mem_keysByScope {entries : List CorrelatedFinding} {tool key : String} :
    key ∈ ((keysByScope entries).get? tool).getD [] ↔
      ∃ source, lastComponent source = tool ∧ Lists entries source key := by
  rw [keysByScope, Dict.getD_collect]
  simp only [List.mem_map, List.mem_filter, List.mem_flatMap, decide_eq_true_eq]
  constructor
  · rintro ⟨p, ⟨⟨entry, hentry, source, hsource, rfl⟩, rfl⟩, rfl⟩
    exact ⟨source, rfl, entry, hentry, rfl, hsource⟩
  · rintro ⟨source, rfl, entry, hentry, rfl, hsource⟩
    exact ⟨_, ⟨⟨entry, hentry, source, hsource, rfl⟩, rfl⟩, rfl⟩

theorem mem_keys_keysByScope {entries : List CorrelatedFinding} {tool : String} :
    tool ∈ (keysByScope entries).keys ↔
      ∃ key source, lastComponent source = tool ∧ Lists entries source key := by
  rw [keysByScope, Dict.collect,
    Dict.mem_keys_foldl_upsert Prod.fst fun x vs => vs.getD [] ++ [x.2]]
  simp only [Dict.empty, Dict.keys, List.map_nil, List.not_mem_nil, false_or, List.mem_flatMap,
    List.mem_map]
  constructor
  · rintro ⟨p, ⟨entry, hentry, source, hsource, rfl⟩, rfl⟩
    exact ⟨_, source, rfl, entry, hentry, rfl, hsource⟩
  · rintro ⟨key, source, rfl, entry, hentry, rfl, hsource⟩
    exact ⟨_, ⟨entry, hentry, source, hsource, rfl⟩, rfl⟩

/-! ### Snapshots of a campaign -/

section

variable {family : String} {results : List SanitizerSweepResult}
  {entries : List CorrelatedFinding} {tool key : String} {store : Baselines}

theorem scopeSnapshot_completeness (baselines : Option Baselines) :
    (scopeSnapshot baselines family results entries tool).completeness = .complete ↔
      NamesTool results tool ∧ CoversTool results tool := by
  have hcompleteness : (scopeSnapshot baselines family results entries tool).completeness =
      ((scopeCompleteness results).get? tool).getD .unknown := by
    cases baselines <;> rfl
  rw [hcompleteness, ← scopeCompleteness_eq_complete]
  cases (scopeCompleteness results).get? tool with
  | none => simp
  | some c => simp

theorem mem_newKeys : key ∈ (scopeSnapshot (some store) family results entries tool).newKeys ↔
    key ∈ ((keysByScope entries).get? tool).getD [] ∧
      ∃ b, store ⟨family, tool⟩ = some b ∧ key ∉ b.correlationKeys := by
  rw [scopeSnapshot]
  cases store ⟨family, tool⟩ with
  | none => simp [diffAgainstBaseline]
  | some b => simp [diffAgainstBaseline, mem_sortedSet]

theorem mem_observedKeys :
    ((scopeSnapshot (some store) family results entries tool).baselineVerdict = .noBaseline ∧
      key ∈ (scopeSnapshot (some store) family results entries tool).observedKeys) ↔
    key ∈ ((keysByScope entries).get? tool).getD [] ∧ store ⟨family, tool⟩ = none := by
  rw [scopeSnapshot]
  cases store ⟨family, tool⟩ with
  | none => simp [diffAgainstBaseline, mem_sortedSet]
  | some b => simp [diffAgainstBaseline]

/-- What a snapshot hands to the baseline of a scope is what the scope reports. -/
theorem mem_recordedKeys :
    key ∈ (scopeSnapshot (some store) family results entries tool).observedKeys ++
        (scopeSnapshot (some store) family results entries tool).newKeys ++
        (scopeSnapshot (some store) family results entries tool).unchangedKeys ↔
      key ∈ ((keysByScope entries).get? tool).getD [] := by
  rw [scopeSnapshot]
  cases store ⟨family, tool⟩ with
  | none => simp [diffAgainstBaseline, mem_sortedSet]
  | some b =>
    simp only [diffAgainstBaseline, List.nil_append, List.mem_append, mem_sortedSet,
      List.mem_filter, decide_eq_true_eq]
    tauto

end

/-! ### Decisions -/

section

variable (search : String → String → Bool) (policy : TriagePolicy) (store : Baselines)
  (session : AnalysisSession)

def TriagePolicy.kept : List FindingRecord :=
  keptFindings search session.evidence policy.suppression policy.date

def TriagePolicy.Reports (tool key : String) : Prop :=
  ScopeReports (policy.kept search session) (activeSanitizerSignals session.evidence) tool key

/-- Everything that the session reports is in the baseline of its scope. -/
def TriagePolicy.Known : Prop :=
  ∀ tool key, policy.Reports search session tool key →
    ∃ b, store ⟨testFamily session.unit.testId, tool⟩ = some b ∧ key ∈ b.correlationKeys

/-- Every tool that is named or reports something covers its scope. -/
def TriagePolicy.ScopesCovered : Prop :=
  ∀ tool, (NamesTool session.evidence.sanitizer tool ∨
      ∃ key, policy.Reports search session tool key) →
    NamesTool session.evidence.sanitizer tool ∧ CoversTool session.evidence.sanitizer tool

def StressProven : Prop :=
  ∀ r ∈ session.evidence.stress, r.hasTrustworthyNonReproduction = true

/-- The outcome that the facts of a campaign call for. -/
noncomputable def outcomeFor (incomplete actionable reproduced known covered stressProven : Prop) :
    TriageOutcome :=
  open Classical in
  if incomplete then .inconclusive
  else if ¬actionable then (if covered ∧ stressProven then .finish else .inconclusive)
  else if reproduced ∨ ¬known then .analyze
  else if covered then .finish else .inconclusive

theorem mem_keysByScope_correlate {tool key : String} :
    key ∈ ((keysByScope (policy.correlate search session).correlatedFindings).get? tool).getD [] ↔
      policy.Reports search session tool key := by
  rw [mem_keysByScope]
  simp only [TriagePolicy.correlate, lists_correlateEvidence]
  rfl

theorem mem_snapshotTools {tool : String} :
    tool ∈ snapshotTools session.evidence.sanitizer
        (policy.correlate search session).correlatedFindings ↔
      NamesTool session.evidence.sanitizer tool ∨ ∃ key, policy.Reports search session tool key := by
  rw [snapshotTools, mem_sortedSet, List.mem_append, mem_keys_scopeCompleteness, mem_keys_keysByScope]
  simp only [TriagePolicy.correlate, lists_correlateEvidence]
  rfl

theorem unprovenScopes_eq_nil (baselines : Option Baselines) :
    unprovenScopes (triageSnapshot baselines session (policy.correlate search session)) = [] ↔
      policy.ScopesCovered search session := by
  simp only [unprovenScopes, List.map_eq_nil_iff, List.filter_eq_nil_iff, triageSnapshot,
    List.forall_mem_map, decide_eq_true_eq, not_not, scopeSnapshot_completeness, mem_snapshotTools]
  rfl

theorem mem_introduced {key : String} :
    key ∈ (triageSnapshot (some store) session (policy.correlate search session)).introduced ↔
      ∃ tool, policy.Reports search session tool key ∧
        ∃ b, store ⟨testFamily session.unit.testId, tool⟩ = some b ∧ key ∉ b.correlationKeys := by
  simp only [TriageSnapshot.introduced, triageSnapshot, List.flatMap_map, List.mem_flatMap,
    mem_newKeys, mem_keysByScope_correlate, mem_snapshotTools]
  constructor
  · rintro ⟨tool, -, h⟩
    exact ⟨tool, h⟩
  · rintro ⟨tool, hreports, hb⟩
    exact ⟨tool, .inr ⟨key, hreports⟩, hreports, hb⟩

theorem mem_unbaselined {key : String} :
    key ∈ (triageSnapshot (some store) session (policy.correlate search session)).unbaselined ↔
      ∃ tool, policy.Reports search session tool key ∧
        store ⟨testFamily session.unit.testId, tool⟩ = none := by
  simp only [TriageSnapshot.unbaselined, triageSnapshot, List.mem_flatMap, List.mem_filter,
    List.mem_map, decide_eq_true_eq]
  constructor
  · rintro ⟨s, ⟨⟨tool, -, rfl⟩, hverdict⟩, hkey⟩
    obtain ⟨hreports, hnone⟩ := mem_observedKeys.mp ⟨hverdict, hkey⟩
    exact ⟨tool, (mem_keysByScope_correlate search policy session).mp hreports, hnone⟩
  · rintro ⟨tool, hreports, hnone⟩
    obtain ⟨hverdict, hkey⟩ := mem_observedKeys.mpr
      ⟨(mem_keysByScope_correlate search policy session).mpr hreports, hnone⟩
    exact ⟨_, ⟨⟨tool, (mem_snapshotTools search policy session).mpr (.inr ⟨key, hreports⟩), rfl⟩,
      hverdict⟩, hkey⟩

/-- Nothing is new and nothing is without a baseline where everything is known. -/
theorem known_iff :
    ((triageSnapshot (some store) session (policy.correlate search session)).introduced = [] ∧
      (triageSnapshot (some store) session (policy.correlate search session)).unbaselined = []) ↔
    policy.Known search store session := by
  simp only [List.eq_nil_iff_forall_not_mem, mem_introduced, mem_unbaselined]
  constructor
  · rintro ⟨hnew, hnone⟩ tool key hreports
    cases hb : store ⟨testFamily session.unit.testId, tool⟩ with
    | none => exact absurd ⟨tool, hreports, hb⟩ (hnone key)
    | some b =>
      refine ⟨b, rfl, ?_⟩
      by_contra hkey
      exact hnew key ⟨tool, hreports, b, hb, hkey⟩
  · intro hknown
    constructor
    · rintro key ⟨tool, hreports, b, hb, hkey⟩
      obtain ⟨b', hb', hkey'⟩ := hknown tool key hreports
      rw [hb] at hb'
      cases hb'
      exact hkey hkey'
    · rintro key ⟨tool, hreports, hnone⟩
      obtain ⟨b, hb, -⟩ := hknown tool key hreports
      rw [hnone] at hb
      cases hb

theorem stress_any_unproven :
    (session.evidence.stress.any fun r => !r.hasTrustworthyNonReproduction) = true ↔
      ¬StressProven session := by
  simp [StressProven]

/-- Where nothing is actionable, neither stress nor a baseline matters. -/
theorem outcomeFor_quiet {r r' k k' c p : Prop} :
    outcomeFor False False r k c p = outcomeFor False False r' k' c p := by
  simp [outcomeFor]

theorem outcomeFor_active {r k c p p' : Prop} :
    outcomeFor False True r k c p = outcomeFor False True r k c p' := by
  simp [outcomeFor]

theorem known_comparedWith :
    (policy.baselines = true ∧
      (triageSnapshot (policy.comparedWith store) session
        (policy.correlate search session)).introduced = [] ∧
      (triageSnapshot (policy.comparedWith store) session
        (policy.correlate search session)).unbaselined = []) ↔
    policy.baselines = true ∧ policy.Known search store session := by
  refine and_congr_right fun hbaselines => ?_
  rw [TriagePolicy.comparedWith, if_pos hbaselines]
  exact known_iff search policy store session

theorem decideQuiet_outcome (triage : TriageResult) (snapshot : TriageSnapshot) :
    (decideQuiet session.evidence triage snapshot).outcome =
      outcomeFor False False False False (unprovenScopes snapshot = []) (StressProven session) := by
  unfold decideQuiet outcomeFor
  rw [if_neg not_false, if_pos not_false]
  by_cases hstress : StressProven session
  · rw [if_neg ((stress_any_unproven session).not.mpr (not_not.mpr hstress))]
    by_cases hscopes : unprovenScopes snapshot = []
    · simp [hscopes, hstress]
    · simp [hscopes]
  · rw [if_pos ((stress_any_unproven session).mpr hstress)]
    simp [hstress]

theorem decideActive_outcome (triage : TriageResult) (snapshot : TriageSnapshot) :
    (decideActive policy triage snapshot).outcome =
      outcomeFor False True
        (triage.correlatedFindings.any CorrelatedFinding.stressReproduced = true)
        (policy.baselines = true ∧ snapshot.introduced = [] ∧ snapshot.unbaselined = [])
        (unprovenScopes snapshot = []) True := by
  unfold decideActive outcomeFor
  rw [if_neg not_false, if_neg (not_not.mpr trivial)]
  by_cases hstress : triage.correlatedFindings.any CorrelatedFinding.stressReproduced = true
  · rw [if_pos hstress, if_pos (.inl hstress)]
  rw [if_neg hstress]
  by_cases hbaselines : policy.baselines = false
  · rw [if_pos hbaselines, if_pos (.inr fun h => by rw [hbaselines] at h; cases h.1)]
  rw [if_neg hbaselines]
  by_cases hnew : snapshot.introduced = []
  · rw [if_neg (not_not.mpr hnew)]
    by_cases hnone : snapshot.unbaselined = []
    · have hknown : ¬(triage.correlatedFindings.any CorrelatedFinding.stressReproduced = true ∨
          ¬(policy.baselines = true ∧ snapshot.introduced = [] ∧ snapshot.unbaselined = [])) := by
        rintro (h | h)
        · exact hstress h
        · exact h ⟨Bool.eq_true_of_not_eq_false hbaselines, hnew, hnone⟩
      rw [if_neg (not_not.mpr hnone), if_neg hknown]
      by_cases hscopes : unprovenScopes snapshot = []
      · rw [if_neg (not_not.mpr hscopes), if_pos hscopes]
      · rw [if_pos hscopes, if_neg hscopes]
    · rw [if_pos hnone, if_pos (.inr fun h => hnone h.2.2)]
  · rw [if_pos hnew, if_pos (.inr fun h => hnew h.2.1)]

/-- `decide` is the decision that the facts call for; without baselines nothing is known. -/
theorem decideTriage_outcome :
    (decideTriage search policy store session).outcome =
      outcomeFor (initialEvidenceRequiresInconclusive session.evidence = true)
        (Actionable search session.evidence policy.suppression policy.date)
        (session.evidence.stressReproduced = true)
        (policy.baselines = true ∧ policy.Known search store session)
        (policy.ScopesCovered search session) (StressProven session) := by
  unfold decideTriage
  by_cases hincomplete : initialEvidenceRequiresInconclusive session.evidence = true
  · rw [outcomeFor, if_pos hincomplete]
    simp only [if_pos hincomplete]
  simp only [if_neg hincomplete]
  by_cases hactionable :
      Actionable search session.evidence policy.suppression policy.date
  · have hanalyze : ¬(policy.correlate search session).shouldAnalyze = false := by
      rw [Bool.not_eq_false]
      exact (correlateEvidence_shouldAnalyze search).mpr hactionable
    have hstress : (policy.correlate search session).correlatedFindings.any
        CorrelatedFinding.stressReproduced = true ↔ session.evidence.stressReproduced = true := by
      rw [List.any_eq_true]
      exact correlateEvidence_stress search
    rw [if_neg hanalyze, decideActive_outcome, unprovenScopes_eq_nil search policy session,
      propext hstress, propext (known_comparedWith search policy store session),
      eq_false hincomplete, eq_true hactionable]
    exact outcomeFor_active
  · have hanalyze : (policy.correlate search session).shouldAnalyze = false := by
      rw [← Bool.not_eq_true]
      exact (correlateEvidence_shouldAnalyze search).not.mpr hactionable
    rw [if_pos hanalyze, decideQuiet_outcome, unprovenScopes_eq_nil search policy session,
      eq_false hincomplete, eq_false hactionable]
    exact outcomeFor_quiet

end

end CuTracer.Service
