import CuTracer.Library.RoundRobin
import CuTracer.Service.Contracts
import Mathlib.Algebra.Order.Ring.Int

/-! Compact trace evidence: the summaries and findings of detectors, projected onto their contracts,
and a sample of the findings that reads the detectors in turn. -/

namespace CuTracer.Service

/-- `TraceAnalysisSeverity(value)`. -/
def TraceAnalysisSeverity.ofValue (value : String) : Except String TraceAnalysisSeverity :=
  if value = "error" then .ok .error
  else if value = "warning" then .ok .warning
  else if value = "info" then .ok .info
  else .error ("'" ++ value ++ "' is not a valid TraceAnalysisSeverity")

/-- `TraceDetectorSummary.__post_init__`. -/
def TraceDetectorSummary.postInit (s : TraceDetectorSummary) : Except String TraceDetectorSummary :=
  if blank s.sourceTool || blank s.subComponent then
    .error "detector summary requires structured source identity"
  else if s.findingCount < 0 then .error "detector finding_count must be non-negative"
  else if s.traceFile.any blank then .error "detector trace_file cannot be empty"
  else .ok s

/-- `TraceAnalysisFinding.__post_init__`. -/
def TraceAnalysisFinding.postInit (f : TraceAnalysisFinding) : Except String TraceAnalysisFinding :=
  if blank f.sourceTool || blank f.subComponent then
    .error "analysis finding requires structured source identity"
  else if f.sourceLocations ≠ [] ∧ f.sourceLocations.length ≠ f.pcs.length then
    .error "source_locations must be empty or parallel to pcs"
  else if f.ctas.any fun cta => cta.length ≠ 3 then
    .error "each CTA coordinate must have exactly three dimensions"
  else if f.traceFile.any blank then .error "analysis finding trace_file cannot be empty"
  else .ok f

/-! ### Detector results -/

structure DetectorSummary where
  tool : String
  subComponent : String
  verdict : String
  severity : String
  description : String

structure DetectorFinding where
  severity : String
  category : String
  description : String
  ctas : List (List ℤ)
  warps : List ℤ
  pcs : List ℤ
  traceIndices : List ℤ
  sourceLocations : List (Option SourceLoc)

/-- The result of a detector. What raises when it is read is an error. -/
structure AnalysisResult where
  summary : Except String DetectorSummary
  findings : List (Except String DetectorFinding)

/-- `hex(pc)`. -/
def hexPc (pc : ℤ) : String :=
  (if pc < 0 then "-0x" else "0x") ++ String.ofList (Nat.toDigits 16 pc.natAbs)

/-- `_summary`. -/
def summaryOf (result : AnalysisResult) (traceFile : String) : Except String TraceDetectorSummary := do
  let summary ← result.summary
  let severity ← TraceAnalysisSeverity.ofValue summary.severity
  TraceDetectorSummary.postInit
    { sourceTool := summary.tool
      subComponent := summary.subComponent
      verdict := summary.verdict
      severity := severity
      findingCount := result.findings.length
      description := summary.description
      traceFile := some traceFile }

/-- `_finding`. -/
def findingOf (result : AnalysisResult) (finding : Except String DetectorFinding) (traceFile : String) :
    Except String TraceAnalysisFinding := do
  let source ← result.summary
  let finding ← finding
  let severity ← TraceAnalysisSeverity.ofValue finding.severity
  TraceAnalysisFinding.postInit
    { sourceTool := source.tool
      subComponent := source.subComponent
      severity := severity
      category := finding.category
      description := finding.description
      ctas := finding.ctas
      warps := finding.warps
      pcs := finding.pcs.map hexPc
      traceIndices := finding.traceIndices
      sourceLocations := finding.sourceLocations
      traceFile := some traceFile }

/-! ### `_sample_findings` -/

/-- A detector result and the file it is about. -/
abbrev FindingGroup := AnalysisResult × String

def maxCompactFindings : ℕ := 32

structure Sampling where
  sampled : List TraceAnalysisFinding
  errors : List String

/-- One finding of a detector: sampled, or an error if it does not project. -/
def Sampling.read (s : Sampling) (detectorIndex : ℕ) (item : FindingGroup × Except String DetectorFinding) :
    Sampling :=
  match findingOf item.1.1 item.2 item.1.2 with
  | .ok finding => { s with sampled := s.sampled ++ [finding] }
  | .error e =>
    if s.errors.length < maxCompactFindings then
      { s with errors := s.errors ++ [item.1.2 ++ ": detector " ++ toString detectorIndex ++ " finding: " ++ e] }
    else s

def FindingGroup.items (group : FindingGroup) : List (FindingGroup × Except String DetectorFinding) :=
  group.1.findings.map fun finding => (group, finding)

/-- `_sample_findings`: rounds over the detectors while there is room. -/
def sampleFindings (findingGroups : List FindingGroup) (maxFindings : ℤ) : Sampling :=
  (RoundRobin.run (fun s : Sampling => decide ((s.sampled.length : ℤ) < maxFindings))
    (fun s => decide ((s.sampled.length : ℤ) = maxFindings)) Sampling.read
    (findingGroups.map FindingGroup.items) ⟨[], []⟩).2

/-! ### What a sample is -/

def projected (item : FindingGroup × Except String DetectorFinding) : Option TraceAnalysisFinding :=
  (findingOf item.1.1 item.2 item.1.2).toOption

def FindingGroup.projectable (group : FindingGroup) : List TraceAnalysisFinding :=
  group.items.filterMap projected

/-- How many of the first findings of a detector do not project. -/
def FindingGroup.failures (group : FindingGroup) (n : ℕ) : ℕ :=
  ((group.items.take n).filter fun item => (projected item).isNone).length

def contribution (picks : List (ℕ × TraceAnalysisFinding)) (detectorIndex : ℕ) : List TraceAnalysisFinding :=
  (picks.filter fun v => v.1 = detectorIndex).map Prod.snd

/-- A fair sample: it is made of picks from the detectors. Each of these was read up to a number of its
findings, and two such numbers differ by one at most. -/
structure FairSample (groups : List FindingGroup) (maxFindings : ℤ) (sampled : List TraceAnalysisFinding)
    (picks : List (ℕ × TraceAnalysisFinding)) (reads : ℕ → ℕ) : Prop where
  picked : sampled = picks.map Prod.snd
  detectors : ∀ v ∈ picks, v.1 < groups.length
  read : ∀ i group, groups[i]? = some group →
    contribution picks i = (group.items.take (reads i)).filterMap projected
  even : ∀ i j, reads i ≤ reads j + 1
  initial : ∀ i group, groups[i]? = some group → contribution picks i <+: group.projectable
  balanced : ∀ i j group group', groups[i]? = some group → groups[j]? = some group' →
    reads j < group'.items.length →
      (contribution picks i).length ≤ (contribution picks j).length + 1 + group'.failures (reads j)
  total : sampled.length = min maxFindings.toNat (groups.flatMap FindingGroup.projectable).length

/-! ### Reading the findings -/

section

variable {maxFindings : ℤ} {visits : List (ℕ × FindingGroup × Except String DetectorFinding)} {s : Sampling}

theorem read_sampled (s : Sampling) (i : ℕ) (item : FindingGroup × Except String DetectorFinding) :
    (s.read i item).sampled = s.sampled ++ (projected item).toList := by
  unfold Sampling.read projected
  cases findingOf item.1.1 item.2 item.1.2 with
  | ok finding => rfl
  | error e =>
    dsimp only
    split_ifs <;> exact (List.append_nil _).symm

theorem visitAll_sampled (s : Sampling) (visits : List (ℕ × FindingGroup × Except String DetectorFinding)) :
    (RoundRobin.visitAll Sampling.read s visits).sampled =
      s.sampled ++ visits.filterMap fun v => projected v.2 := by
  induction visits generalizing s with
  | nil => exact (List.append_nil _).symm
  | cons v visits ih =>
    rw [RoundRobin.visitAll, List.foldl_cons]
    refine (ih _).trans ?_
    rw [read_sampled, List.append_assoc, List.filterMap_cons]
    cases projected v.2 <;> rfl

/-- No finding is read where there is no room. -/
theorem length_le_of_unstopped (hs : (s.sampled.length : ℤ) ≤ maxFindings)
    (h : RoundRobin.Unstopped (fun s : Sampling => decide ((s.sampled.length : ℤ) = maxFindings))
      Sampling.read s visits) :
    ((RoundRobin.visitAll Sampling.read s visits).sampled.length : ℤ) ≤ maxFindings := by
  induction visits generalizing s with
  | nil => exact hs
  | cons v visits ih =>
    obtain ⟨hroom, hrest⟩ := h
    refine ih ?_ hrest
    have hne : (s.sampled.length : ℤ) ≠ maxFindings := by simpa using hroom
    rw [read_sampled, List.length_append]
    cases projected v.2 <;> simp <;> omega

def picksOf (visits : List (ℕ × FindingGroup × Except String DetectorFinding)) :
    List (ℕ × TraceAnalysisFinding) :=
  visits.filterMap fun v => (projected v.2).map fun finding => (v.1, finding)

theorem map_picksOf : (picksOf visits).map Prod.snd = visits.filterMap fun v => projected v.2 := by
  rw [picksOf, List.map_filterMap]
  congr 1
  funext v
  cases projected v.2 <;> rfl

theorem contribution_picksOf (i : ℕ) :
    contribution (picksOf visits) i = (visits.filter fun v => v.1 = i).filterMap fun v => projected v.2 := by
  induction visits with
  | nil => rfl
  | cons v visits ih =>
    rw [contribution, picksOf] at ih
    rw [contribution, picksOf, List.filterMap_cons]
    by_cases hi : v.1 = i <;> cases h : projected v.2 <;> simp [hi, h, ih]

theorem total_items (groups : List FindingGroup) (i : ℕ) :
    RoundRobin.total (fun _ => projected) i (groups.map FindingGroup.items) =
      (groups.flatMap FindingGroup.projectable).length := by
  induction groups generalizing i with
  | nil => rfl
  | cons g groups ih =>
    rw [List.map_cons, RoundRobin.total, ih, List.flatMap_cons, List.length_append]
    rfl

theorem failures_add (group : FindingGroup) (n : ℕ) :
    ((group.items.take n).filterMap projected).length + group.failures n = (group.items.take n).length := by
  unfold FindingGroup.failures
  generalize group.items.take n = items
  induction items with
  | nil => rfl
  | cons item items ih =>
    cases h : projected item <;> simp [h] <;> omega

end

theorem filter_visits {groups : List FindingGroup} (k p i : ℕ) :
    (RoundRobin.rows k p (groups.map FindingGroup.items)).filter (fun v => v.1 = i) =
      (((groups[i]?.map FindingGroup.items).getD []).take (RoundRobin.reads k p i)).map fun x => (i, x) := by
  rw [RoundRobin.filter_rows, List.getD_eq_getElem?_getD, List.getElem?_map]

/-- The sample is fair, whatever the detectors found and however many of their findings project. -/
theorem sampleFindings_fair (groups : List FindingGroup) (maxFindings : ℤ) :
    ∃ picks reads, FairSample groups maxFindings (sampleFindings groups maxFindings).sampled picks reads := by
  obtain ⟨k, p, -, hstate, hunstopped, hgo, hend⟩ := RoundRobin.run_spec
    (fun s : Sampling => decide ((s.sampled.length : ℤ) < maxFindings))
    (fun s => decide ((s.sampled.length : ℤ) = maxFindings)) Sampling.read
    (groups.map FindingGroup.items) ⟨[], []⟩
  set visits := RoundRobin.rows k p (groups.map FindingGroup.items) with hvisits
  have hsampled : (sampleFindings groups maxFindings).sampled = visits.filterMap fun v => projected v.2 := by
    rw [sampleFindings, hstate, visitAll_sampled, List.nil_append]
  have hread : ∀ i group, groups[i]? = some group → contribution (picksOf visits) i =
      (group.items.take (RoundRobin.reads k p i)).filterMap projected := by
    intro i group hi
    rw [contribution_picksOf, hvisits, filter_visits, hi, Option.map_some, Option.getD_some, List.filterMap_map]
    rfl
  refine ⟨picksOf visits, RoundRobin.reads k p, ?_, ?_, hread, RoundRobin.reads_le k p, ?_, ?_, ?_⟩
  · rw [hsampled, map_picksOf]
  · intro v hv
    obtain ⟨visit, hvisit, hpick⟩ := List.mem_filterMap.mp hv
    obtain ⟨finding, -, rfl⟩ := Option.map_eq_some_iff.mp hpick
    by_contra hlt
    have hmem : visit ∈ visits.filter fun v => v.1 = visit.1 := List.mem_filter.mpr ⟨hvisit, by simp⟩
    rw [hvisits, filter_visits, List.getElem?_eq_none (not_lt.mp hlt)] at hmem
    simp at hmem
  · intro i group hi
    rw [hread i group hi]
    exact (List.take_prefix _ _).filterMap _
  · intro i j group group' hi hj hunread
    rw [hread i group hi, hread j group' hj]
    have hfailures := failures_add group' (RoundRobin.reads k p j)
    have hle := RoundRobin.reads_le k p i j
    have hlength := List.length_filterMap_le projected (group.items.take (RoundRobin.reads k p i))
    rw [List.length_take] at hlength hfailures
    omega
  · have htotal := RoundRobin.total_rows (fun _ => projected) k p (groups.map FindingGroup.items)
    rw [total_items] at htotal
    have hbound : (0 : ℤ) ≤ maxFindings →
        ((sampleFindings groups maxFindings).sampled.length : ℤ) ≤ maxFindings := by
      intro hmax
      rw [sampleFindings, hstate]
      exact length_le_of_unstopped hmax hunstopped
    have hnegative : maxFindings < 0 → (sampleFindings groups maxFindings).sampled.length = 0 := by
      intro hmax
      rw [hsampled, hgo (by simpa using hmax.le)]
      rfl
    change decide (((sampleFindings groups maxFindings).sampled.length : ℤ) < maxFindings) = false ∨
      decide (((sampleFindings groups maxFindings).sampled.length : ℤ) = maxFindings) = true ∨ _ at hend
    rw [← hvisits, ← hsampled] at htotal
    obtain hend | hend | hend := hend
    · rw [decide_eq_false_iff_not] at hend
      omega
    · rw [decide_eq_true_eq] at hend
      omega
    · rw [RoundRobin.total_of_nil _ hend] at htotal
      omega

end CuTracer.Service
