import CuTracer.Library.Dict
import CuTracer.Library.SortedSet
import CuTracer.Service.Suppression
import Mathlib.Data.List.Induction
import Mathlib.Data.String.Basic

/-! Correlation of the initial evidence: findings that survive suppression are grouped
into one entry for each defect, a positive summary without finding blocks becomes an
entry of its own, and a stress reproduction marks the entries it supports. What an
entry reports is the pairs of a tool scope and a correlation key. -/

namespace CuTracer.Service

/-! ### Keys -/

/-- `s.split("/")[-1]`. -/
def lastComponent (s : String) : String :=
  String.ofList (s.toList.reverse.takeWhile (· ≠ '/')).reverse

/-- What stands before the bracket that the reversed text closes. -/
def beforeBracket : ℕ → List Char → Option (List Char)
  | _, [] => none
  | depth, c :: rest =>
    if c = ']' then beforeBracket (depth + 1) rest
    else if c = '[' then (if depth = 1 then some rest else beforeBracket (depth - 1) rest)
    else beforeBracket depth rest

def testFamily (testId : String) : String :=
  let reversed := testId.toList.reverse
  if reversed.head? = some ']' then
    match beforeBracket 0 reversed with
    | none | some [] => testId
    | some family => String.ofList family.reverse
  else testId

def SourceLoc.text (source : SourceLoc) : String := source.file ++ ":" ++ toString source.line

variable (finding : FindingRecord)

/-- `finding.kernel_name or "<unattributed>"`. -/
def FindingRecord.symbol : String :=
  match finding.kernelName with
  | none => "<unattributed>"
  | some name => if name = "" then "<unattributed>" else name

def correlationKey : String :=
  match finding.source with
  | none => finding.symbol ++ "|" ++ finding.errorType
  | some source => finding.symbol ++ "|" ++ source.text ++ "|" ++ finding.errorType

/-! ### Entries -/

structure CorrelatedFinding where
  correlationKey : String
  evidenceSources : List String := []
  findings : List FindingRecord := []
  stressReproduced : Bool := false
  kernelSymbol : Option String := none
  sourceLocation : Option String := none
  errorType : String := ""
  testFamily : String := ""
  tools : List String := []
  totalCount : ℤ := 0

structure TriageResult where
  correlatedFindings : List CorrelatedFinding
  shouldAnalyze : Bool
  suppressed : SuppressionOutcome

def activeSanitizerSignals (evidence : EvidenceBundle) : List SanitizerSweepResult :=
  evidence.sanitizer.filter fun r =>
    r.hasPositiveSignal && (r.findings.isEmpty || r.outputTruncated)

/-- The entries by key, in the order in which they were added. -/
abbrev Grouped := Dict String CorrelatedFinding

def openEntry (family : String) : CorrelatedFinding where
  correlationKey := Service.correlationKey finding
  kernelSymbol := finding.kernelName
  sourceLocation := finding.source.map SourceLoc.text
  errorType := finding.errorType
  testFamily := family

def CorrelatedFinding.addFinding (entry : CorrelatedFinding) : CorrelatedFinding :=
  { entry with
    findings := entry.findings ++ [finding]
    totalCount := entry.totalCount + finding.count
    tools := if finding.sourceTool ∈ entry.tools then entry.tools
      else entry.tools ++ [finding.sourceTool] }

def groupFindings (findings : List FindingRecord) (family : String) : Grouped :=
  findings.foldl (fun grouped finding =>
    grouped.upsert (correlationKey finding) fun entry =>
      (entry.getD (openEntry finding family)).addFinding finding) .empty

variable (r : SanitizerSweepResult)

def SanitizerSweepResult.sourceTool : String :=
  "compute_sanitizer/" ++ r.tool

def unattributedPrefix : String := "<unattributed-summary>|"

/-- The key of a positive summary without finding blocks. -/
def SanitizerSweepResult.summaryKey : String :=
  unattributedPrefix ++ r.sourceTool

def addUnattributedSanitizerSignals (grouped : Grouped) (signals : List SanitizerSweepResult)
    (family : String) : Grouped :=
  signals.foldl (fun grouped r =>
    grouped.upsert r.summaryKey fun entry => entry.getD
      { correlationKey := r.summaryKey
        evidenceSources := [r.sourceTool]
        errorType := "unattributed"
        testFamily := family
        tools := [r.sourceTool] }) grouped

/-- The key does not stand for an unattributed summary. -/
def attributed (key : String) : Bool := !unattributedPrefix.toList.isPrefixOf key.toList

def addStressSignal (grouped : Grouped) (unitId family : String) : Grouped :=
  if grouped.values.any fun entry => attributed entry.correlationKey then
    grouped.mapValues fun _ entry =>
      if attributed entry.correlationKey then { entry with stressReproduced := true } else entry
  else
    let key := "<stress>|" ++ unitId
    grouped.insert key
      { correlationKey := key
        stressReproduced := true
        errorType := "correctness-failure"
        testFamily := family }

def populateEvidenceSources (grouped : Grouped) : Grouped :=
  grouped.mapValues fun _ entry =>
    { entry with evidenceSources := sortedSet (entry.tools ++
        if entry.stressReproduced then ["cutracer/random_delay"] else []) }

def EvidenceBundle.findings (evidence : EvidenceBundle) : List FindingRecord :=
  evidence.sanitizer.flatMap SanitizerSweepResult.findings

def EvidenceBundle.stressReproduced (evidence : EvidenceBundle) : Bool :=
  evidence.stress.any StressTestResult.hasPositiveSignal

section

variable (search : String → String → Bool)

/-- `correlate_evidence` under the rules of a policy, the default rules where there is none. -/
def correlateEvidence (unitId : String) (evidence : EvidenceBundle) (testId : String)
    (suppression : Option (List SuppressionRule)) (today : Option Date) : TriageResult :=
  let outcome := applyRules search (suppression.getD defaultSuppressionRules) evidence.findings today
  let signals := activeSanitizerSignals evidence
  if outcome.kept = [] ∧ signals = [] ∧ evidence.stressReproduced = false then
    ⟨[], false, outcome⟩
  else
    let family := testFamily testId
    let grouped := addUnattributedSanitizerSignals (groupFindings outcome.kept family) signals family
    let grouped := if evidence.stressReproduced then addStressSignal grouped unitId family else grouped
    ⟨(populateEvidenceSources grouped).values, true, outcome⟩

end

/-! ### What the entries report -/

/-- A tool reports a key: in a finding, or in a summary whose key no finding has. -/
def Reported (kept : List FindingRecord) (signals : List SanitizerSweepResult)
    (tool key : String) : Prop :=
  (∃ f ∈ kept, correlationKey f = key ∧ f.sourceTool = tool) ∨
    ∃ r ∈ signals, r.summaryKey = key ∧ r.sourceTool = tool ∧ ∀ f ∈ kept, correlationKey f ≠ key

/-- The entries of some findings and summaries, before stress is looked at. -/
structure Entries (kept : List FindingRecord) (signals : List SanitizerSweepResult)
    (grouped : Grouped) : Prop where
  keys : ∀ key, key ∈ grouped.keys ↔
    (∃ f ∈ kept, correlationKey f = key) ∨ ∃ r ∈ signals, r.summaryKey = key
  key : ∀ key entry, grouped.get? key = some entry → entry.correlationKey = key
  quiet : ∀ key entry, grouped.get? key = some entry → entry.stressReproduced = false
  tools : ∀ key entry, grouped.get? key = some entry →
    ∀ tool, tool ∈ entry.tools ↔ Reported kept signals tool key

theorem CorrelatedFinding.mem_tools_addFinding {entry : CorrelatedFinding} {finding : FindingRecord}
    {tool : String} :
    tool ∈ (entry.addFinding finding).tools ↔ tool ∈ entry.tools ∨ tool = finding.sourceTool := by
  unfold addFinding
  by_cases hmem : finding.sourceTool ∈ entry.tools
  · simp only [if_pos hmem]
    constructor
    · exact .inl
    · rintro (h | rfl)
      · exact h
      · exact hmem
  · simp only [if_neg hmem, List.mem_append, List.mem_singleton]

variable {kept : List FindingRecord}

theorem reported_findings_append {f : FindingRecord} {tool key : String} :
    Reported (kept ++ [f]) [] tool key ↔
      Reported kept [] tool key ∨ (correlationKey f = key ∧ f.sourceTool = tool) := by
  simp [Reported, or_and_right, exists_or]

theorem entries_groupFindings (kept : List FindingRecord) (family : String) :
    Entries kept [] (groupFindings kept family) := by
  induction kept using List.reverseRecOn with
  | nil =>
    have hnone : ∀ key, (groupFindings [] family).get? key = none := fun _ => rfl
    exact ⟨fun key => by simp [groupFindings, Dict.empty, Dict.keys],
      fun key entry h => (by rw [hnone] at h; cases h),
      fun key entry h => (by rw [hnone] at h; cases h),
      fun key entry h => (by rw [hnone] at h; cases h)⟩
  | append_singleton kept f ih =>
    have hstep : groupFindings (kept ++ [f]) family =
        (groupFindings kept family).upsert (correlationKey f) fun entry =>
          (entry.getD (openEntry f family)).addFinding f := by
      simp only [groupFindings, List.foldl_append, List.foldl_cons, List.foldl_nil]
    rw [hstep]
    have hget {key : String} {entry : CorrelatedFinding}
        (h : ((groupFindings kept family).upsert (correlationKey f) fun entry =>
          (entry.getD (openEntry f family)).addFinding f).get? key = some entry) :
        (correlationKey f = key ∧ entry =
            (((groupFindings kept family).get? key).getD (openEntry f family)).addFinding f) ∨
          (correlationKey f ≠ key ∧ (groupFindings kept family).get? key = some entry) := by
      rw [Dict.get?_upsert] at h
      by_cases hkey : key = correlationKey f
      · subst hkey
        rw [if_pos rfl] at h
        exact .inl ⟨rfl, (Option.some.inj h).symm⟩
      · rw [if_neg hkey] at h
        exact .inr ⟨Ne.symm hkey, h⟩
    constructor
    · intro key
      rw [Dict.mem_keys_upsert, ih.keys]
      simp only [List.mem_append, List.mem_singleton, or_and_right, exists_or, exists_eq_left,
        List.not_mem_nil, false_and, exists_false, or_false]
      rw [or_comm, eq_comm]
    · intro key entry h
      obtain ⟨rfl, rfl⟩ | ⟨-, h⟩ := hget h
      · cases hold : (groupFindings kept family).get? (correlationKey f) with
        | none => rfl
        | some old => exact ih.key _ old hold
      · exact ih.key key entry h
    · intro key entry h
      obtain ⟨rfl, rfl⟩ | ⟨-, h⟩ := hget h
      · cases hold : (groupFindings kept family).get? (correlationKey f) with
        | none => rfl
        | some old => exact ih.quiet _ old hold
      · exact ih.quiet key entry h
    · intro key entry h tool
      rw [reported_findings_append]
      obtain ⟨rfl, rfl⟩ | ⟨hne, h⟩ := hget h
      · rw [CorrelatedFinding.mem_tools_addFinding]
        refine or_congr ?_ (by simp [eq_comm])
        cases hold : (groupFindings kept family).get? (correlationKey f) with
        | none =>
          have habsent : correlationKey f ∉ (groupFindings kept family).keys :=
            (Dict.get?_eq_none_iff _ _).mp hold
          rw [ih.keys] at habsent
          constructor
          · intro hmem
            cases hmem
          · rintro (⟨g, hg, hkey, -⟩ | ⟨r, hr, -⟩)
            · exact absurd (.inl ⟨g, hg, hkey⟩) habsent
            · cases hr
        | some old => exact ih.tools _ old hold tool
      · rw [ih.tools key entry h tool]
        constructor
        · exact .inl
        · rintro (hr | ⟨hkey, -⟩)
          · exact hr
          · exact absurd hkey hne

theorem summaryKey_inj {r r' : SanitizerSweepResult} (h : r.summaryKey = r'.summaryKey) :
    r.sourceTool = r'.sourceTool := by
  have hlist := congrArg String.toList h
  simp only [SanitizerSweepResult.summaryKey, String.toList_append] at hlist
  exact String.toList_inj.mp (List.append_cancel_left hlist)

variable {signals : List SanitizerSweepResult}

/-- One more summary reports its key, unless a finding has that key. -/
theorem reported_signals_append {r : SanitizerSweepResult} {tool key : String} :
    Reported kept (signals ++ [r]) tool key ↔
      Reported kept signals tool key ∨
        (r.summaryKey = key ∧ r.sourceTool = tool ∧ ∀ f ∈ kept, correlationKey f ≠ key) := by
  simp only [Reported, List.mem_append, List.mem_singleton, or_and_right, exists_or,
    exists_eq_left, or_assoc]

def summaryEntry (family : String) : CorrelatedFinding where
  correlationKey := r.summaryKey
  evidenceSources := [r.sourceTool]
  errorType := "unattributed"
  testFamily := family
  tools := [r.sourceTool]

variable {grouped : Grouped}

theorem entries_upsert_summary (h : Entries kept signals grouped) (r : SanitizerSweepResult)
    (family : String) : Entries kept (signals ++ [r])
      (grouped.upsert r.summaryKey fun entry => entry.getD (summaryEntry r family)) := by
  have hget {key : String} {entry : CorrelatedFinding}
      (hentry : (grouped.upsert r.summaryKey fun entry => entry.getD (summaryEntry r family)).get? key =
        some entry) :
      grouped.get? key = some entry ∨
        (r.summaryKey = key ∧ grouped.get? key = none ∧ entry = summaryEntry r family) := by
    rw [Dict.get?_upsert] at hentry
    by_cases hkey : key = r.summaryKey
    · subst hkey
      rw [if_pos rfl] at hentry
      cases hold : grouped.get? r.summaryKey with
      | none =>
        rw [hold] at hentry
        exact .inr ⟨rfl, rfl, (Option.some.inj hentry).symm⟩
      | some old =>
        rw [hold] at hentry
        exact .inl hentry
    · rw [if_neg hkey] at hentry
      exact .inl hentry
  constructor
  · intro key
    rw [Dict.mem_keys_upsert, h.keys]
    simp only [List.mem_append, List.mem_singleton, or_and_right, exists_or, exists_eq_left]
    rw [eq_comm (a := key), or_comm, or_assoc]
  · intro key entry hentry
    obtain hold | ⟨rfl, -, rfl⟩ := hget hentry
    · exact h.key key entry hold
    · rfl
  · intro key entry hentry
    obtain hold | ⟨rfl, -, rfl⟩ := hget hentry
    · exact h.quiet key entry hold
    · rfl
  · intro key entry hentry tool
    rw [reported_signals_append]
    obtain hold | ⟨rfl, hnone, rfl⟩ := hget hentry
    · rw [h.tools key entry hold tool]
      refine ⟨.inl, ?_⟩
      rintro (hr | ⟨rfl, rfl, hkept⟩)
      · exact hr
      -- the key is there already, and no finding has it: an equal summary opened the entry
      · obtain ⟨f, hf, hkey⟩ | ⟨r', hr', hkey⟩ := (h.keys _).mp (Dict.mem_keys_of_get? hold)
        · exact absurd hkey (hkept f hf)
        · exact .inr ⟨r', hr', hkey, summaryKey_inj hkey, hkept⟩
    · have habsent := (Dict.get?_eq_none_iff _ _).mp hnone
      rw [h.keys, not_or] at habsent
      have hkept : ∀ f ∈ kept, correlationKey f ≠ r.summaryKey := fun f hf hkey =>
        habsent.1 ⟨f, hf, hkey⟩
      have hbefore : ¬Reported kept signals tool r.summaryKey := by
        rintro (⟨f, hf, hkey, -⟩ | ⟨r', hr', hkey, -⟩)
        · exact hkept f hf hkey
        · exact habsent.2 ⟨r', hr', hkey⟩
      simp only [summaryEntry, List.mem_singleton, hbefore, false_or, true_and]
      constructor
      · rintro rfl
        exact ⟨rfl, hkept⟩
      · intro hr
        exact hr.1.symm

theorem entries_addUnattributedSanitizerSignals (h : Entries kept [] grouped)
    (signals : List SanitizerSweepResult) (family : String) :
    Entries kept signals (addUnattributedSanitizerSignals grouped signals family) := by
  induction signals using List.reverseRecOn with
  | nil => exact h
  | append_singleton signals r ih =>
    have hstep : addUnattributedSanitizerSignals grouped (signals ++ [r]) family =
        (addUnattributedSanitizerSignals grouped signals family).upsert r.summaryKey fun entry =>
          entry.getD (summaryEntry r family) := by
      simp only [addUnattributedSanitizerSignals, List.foldl_append, List.foldl_cons, List.foldl_nil]
      rfl
    rw [hstep]
    exact entries_upsert_summary ih r family

/-! ### Stress -/

def Lists (entries : List CorrelatedFinding) (tool key : String) : Prop :=
  ∃ entry ∈ entries, entry.correlationKey = key ∧ tool ∈ entry.tools

/-- A rewrite of the entries that keeps their keys and tools. -/
theorem lists_mapValues {f : String → CorrelatedFinding → CorrelatedFinding}
    (hkey : ∀ k e, (f k e).correlationKey = e.correlationKey)
    (htools : ∀ k e, (f k e).tools = e.tools) (tool key : String) :
    Lists (grouped.mapValues f).values tool key ↔ Lists grouped.values tool key := by
  constructor
  · rintro ⟨entry, hentry, hk, ht⟩
    obtain ⟨e, he, rfl⟩ := Dict.mem_values_mapValues.mp hentry
    rw [hkey] at hk
    rw [htools] at ht
    exact ⟨e.2, List.mem_map.mpr ⟨e, he, rfl⟩, hk, ht⟩
  · rintro ⟨entry, hentry, hk, ht⟩
    obtain ⟨e, he, rfl⟩ := List.mem_map.mp hentry
    refine ⟨f e.1 e.2, Dict.mem_values_mapValues.mpr ⟨e, he, rfl⟩, ?_, ?_⟩
    · rw [hkey]
      exact hk
    · rw [htools]
      exact ht

theorem Entries.lists (h : Entries kept signals grouped) (tool key : String) :
    Lists grouped.values tool key ↔ Reported kept signals tool key := by
  constructor
  · rintro ⟨entry, hentry, rfl, ht⟩
    obtain ⟨k, hk⟩ := (Dict.mem_values_iff _ _).mp hentry
    rw [h.key k entry hk]
    exact (h.tools k entry hk tool).mp ht
  · intro hr
    have hmem : key ∈ grouped.keys := by
      rw [h.keys]
      obtain ⟨f, hf, hkey, -⟩ | ⟨r, hr, hkey, -⟩ := hr
      · exact .inl ⟨f, hf, hkey⟩
      · exact .inr ⟨r, hr, hkey⟩
    obtain ⟨entry, hentry⟩ := (Dict.mem_keys_iff _ _).mp hmem
    exact ⟨entry, (Dict.mem_values_iff _ _).mpr ⟨key, hentry⟩, h.key key entry hentry,
      (h.tools key entry hentry tool).mpr hr⟩

theorem attributed_stress (unitId : String) : attributed ("<stress>|" ++ unitId) = true := by
  rw [attributed, String.toList_append]
  rfl

/-- A stress signal marks an entry, or adds one that no tool reports. -/
theorem addStressSignal_spec (h : Entries kept signals grouped) (unitId family : String) :
    (∀ tool key, Lists (addStressSignal grouped unitId family).values tool key ↔
      Reported kept signals tool key) ∧
      ∃ entry ∈ (addStressSignal grouped unitId family).values, entry.stressReproduced = true := by
  unfold addStressSignal
  by_cases hany : (grouped.values.any fun entry => attributed entry.correlationKey) = true
  · rw [if_pos hany]
    constructor
    · intro tool key
      rw [lists_mapValues, h.lists]
      · intro k e
        split_ifs <;> rfl
      · intro k e
        split_ifs <;> rfl
    · obtain ⟨entry, hentry, hattr⟩ := List.any_eq_true.mp hany
      obtain ⟨e, he, rfl⟩ := List.mem_map.mp hentry
      refine ⟨_, Dict.mem_values_mapValues.mpr ⟨e, he, rfl⟩, ?_⟩
      rw [if_pos hattr]
  · rw [if_neg hany]
    have hnew : ("<stress>|" ++ unitId) ∉ grouped.keys := by
      intro hmem
      obtain ⟨entry, hentry⟩ := (Dict.mem_keys_iff _ _).mp hmem
      apply hany
      refine List.any_eq_true.mpr ⟨entry, (Dict.mem_values_iff _ _).mpr ⟨_, hentry⟩, ?_⟩
      rw [h.key _ entry hentry]
      exact attributed_stress unitId
    constructor
    · intro tool key
      rw [← h.lists]
      constructor
      · rintro ⟨entry, hentry, hk, ht⟩
        obtain ⟨k, hk'⟩ := (Dict.mem_values_iff _ _).mp hentry
        rw [Dict.get?_insert] at hk'
        by_cases hkey : k = "<stress>|" ++ unitId
        · rw [if_pos hkey] at hk'
          cases hk'
          cases ht
        · rw [if_neg hkey] at hk'
          exact ⟨entry, (Dict.mem_values_iff _ _).mpr ⟨k, hk'⟩, hk, ht⟩
      · rintro ⟨entry, hentry, hk, ht⟩
        obtain ⟨k, hk'⟩ := (Dict.mem_values_iff _ _).mp hentry
        refine ⟨entry, (Dict.mem_values_iff _ _).mpr ⟨k, ?_⟩, hk, ht⟩
        rw [Dict.get?_insert, if_neg]
        · exact hk'
        · rintro rfl
          exact hnew (Dict.mem_keys_of_get? hk')
    · exact ⟨_, (Dict.mem_values_iff _ _).mpr ⟨_, by rw [Dict.get?_insert, if_pos rfl]⟩, rfl⟩

theorem lists_populateEvidenceSources (tool key : String) :
    Lists (populateEvidenceSources grouped).values tool key ↔ Lists grouped.values tool key := by
  unfold populateEvidenceSources
  apply lists_mapValues
  · intro k e
    rfl
  · intro k e
    rfl

theorem populateEvidenceSources_stress :
    (∃ entry ∈ (populateEvidenceSources grouped).values, entry.stressReproduced = true) ↔
      ∃ entry ∈ grouped.values, entry.stressReproduced = true := by
  constructor
  · rintro ⟨entry, hentry, hs⟩
    obtain ⟨e, he, rfl⟩ := Dict.mem_values_mapValues.mp hentry
    exact ⟨e.2, List.mem_map.mpr ⟨e, he, rfl⟩, hs⟩
  · rintro ⟨entry, hentry, hs⟩
    obtain ⟨e, he, rfl⟩ := List.mem_map.mp hentry
    exact ⟨_, Dict.mem_values_mapValues.mpr ⟨e, he, rfl⟩, hs⟩

/-! ### The result -/

section

variable (search : String → String → Bool) {unitId testId : String} {evidence : EvidenceBundle}
  {suppression : Option (List SuppressionRule)} {today : Option Date}

def keptFindings (evidence : EvidenceBundle) (suppression : Option (List SuppressionRule))
    (today : Option Date) : List FindingRecord :=
  (applyRules search (suppression.getD defaultSuppressionRules) evidence.findings today).kept

/-- Something is left to report. -/
def Actionable (evidence : EvidenceBundle) (suppression : Option (List SuppressionRule))
    (today : Option Date) : Prop :=
  keptFindings search evidence suppression today ≠ [] ∨ activeSanitizerSignals evidence ≠ [] ∨
    evidence.stressReproduced = true

theorem not_actionable : ¬Actionable search evidence suppression today ↔
    keptFindings search evidence suppression today = [] ∧ activeSanitizerSignals evidence = [] ∧
      evidence.stressReproduced = false := by
  simp only [Actionable, not_or, not_not, Bool.not_eq_true]

theorem correlateEvidence_none (h : ¬Actionable search evidence suppression today) :
    correlateEvidence search unitId evidence testId suppression today =
      ⟨[], false,
        applyRules search (suppression.getD defaultSuppressionRules) evidence.findings today⟩ :=
  if_pos ((not_actionable search).mp h)

theorem correlateEvidence_some (h : Actionable search evidence suppression today) :
    correlateEvidence search unitId evidence testId suppression today =
      let grouped := addUnattributedSanitizerSignals
        (groupFindings (keptFindings search evidence suppression today) (testFamily testId))
        (activeSanitizerSignals evidence) (testFamily testId)
      ⟨(populateEvidenceSources (if evidence.stressReproduced then
          addStressSignal grouped unitId (testFamily testId) else grouped)).values, true,
        applyRules search (suppression.getD defaultSuppressionRules) evidence.findings today⟩ :=
  if_neg fun hnone => (not_actionable search).mpr hnone h

theorem correlateEvidence_suppressed :
    (correlateEvidence search unitId evidence testId suppression today).suppressed =
      applyRules search (suppression.getD defaultSuppressionRules) evidence.findings today := by
  by_cases h : Actionable search evidence suppression today
  · rw [correlateEvidence_some search h]
  · rw [correlateEvidence_none search h]

theorem correlateEvidence_shouldAnalyze :
    (correlateEvidence search unitId evidence testId suppression today).shouldAnalyze = true ↔
      Actionable search evidence suppression today := by
  by_cases h : Actionable search evidence suppression today
  · rw [correlateEvidence_some search h]
    simp [h]
  · rw [correlateEvidence_none search h]
    simp [h]

/-- The entries report exactly what the kept findings and the open summaries report. -/
theorem lists_correlateEvidence (tool key : String) :
    Lists (correlateEvidence search unitId evidence testId suppression today).correlatedFindings
      tool key ↔ Reported (keptFindings search evidence suppression today)
        (activeSanitizerSignals evidence) tool key := by
  by_cases h : Actionable search evidence suppression today
  · have hentries := entries_addUnattributedSanitizerSignals
      (entries_groupFindings (keptFindings search evidence suppression today) (testFamily testId))
      (activeSanitizerSignals evidence) (testFamily testId)
    rw [correlateEvidence_some search h, lists_populateEvidenceSources]
    by_cases hstress : evidence.stressReproduced = true
    · rw [if_pos hstress]
      exact (addStressSignal_spec hentries unitId (testFamily testId)).1 tool key
    · rw [if_neg hstress]
      exact hentries.lists tool key
  · obtain ⟨hkept, hsignals, -⟩ := (not_actionable search).mp h
    rw [correlateEvidence_none search h, hkept, hsignals]
    simp [Lists, Reported]

/-- Some entry is reproduced where stress reproduced the failure. -/
theorem correlateEvidence_stress :
    (∃ entry ∈ (correlateEvidence search unitId evidence testId suppression today).correlatedFindings,
      entry.stressReproduced = true) ↔ evidence.stressReproduced = true := by
  by_cases h : Actionable search evidence suppression today
  · have hentries := entries_addUnattributedSanitizerSignals
      (entries_groupFindings (keptFindings search evidence suppression today) (testFamily testId))
      (activeSanitizerSignals evidence) (testFamily testId)
    rw [correlateEvidence_some search h, populateEvidenceSources_stress]
    by_cases hstress : evidence.stressReproduced = true
    · rw [if_pos hstress]
      simp only [hstress, iff_true]
      exact (addStressSignal_spec hentries unitId (testFamily testId)).2
    · rw [if_neg hstress]
      refine iff_of_false ?_ hstress
      rintro ⟨entry, hentry, hs⟩
      obtain ⟨k, hk⟩ := (Dict.mem_values_iff _ _).mp hentry
      rw [hentries.quiet k entry hk] at hs
      cases hs
  · obtain ⟨-, -, hquiet⟩ := (not_actionable search).mp h
    rw [correlateEvidence_none search h, hquiet]
    simp

end

end CuTracer.Service
