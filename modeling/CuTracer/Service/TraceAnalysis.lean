import CuTracer.Library.Dict
import CuTracer.Library.Fallible
import CuTracer.Library.Json
import CuTracer.Library.SortedMap
import CuTracer.Service.TraceSample
import Mathlib.Algebra.Order.BigOperators.Group.List
import Mathlib.Data.List.Dedup
import Mathlib.Data.Prod.Lex
import Mathlib.Data.String.Basic

/-! The analysis of captured traces. Every file is analyzed on its own, a failure of an analyzer or of a
detector is recorded, and the evidence is made of a sample of all findings. Whatever fails, the findings
that are counted are those of the detectors that are sampled. -/

namespace CuTracer.Service

/-- What an analyzer returns. A payload that is no dictionary is `none`. -/
structure AnalyzerOutput where
  analyzer : String
  detectorResults : List AnalysisResult
  warnings : List String
  payload : Option (Dict String Json)

/-- An analyzer with its names, if it is not the default one. -/
structure TraceAnalyzer where
  isDefault : Bool
  name : Option String
  typeName : String
  analyze : String → Except String AnalyzerOutput

structure TraceProjection where
  analyzer : String
  analyzerConfirmed : Bool
  summaries : List TraceDetectorSummary
  findingGroups : List FindingGroup
  totalFindings : ℕ
  warnings : List String
  payload : Option (Dict String Json)
  error : Option String

/-- An entry of `trace_results`. -/
structure TraceResult where
  traceFile : String
  projection : TraceProjection

inductive TraceReport where
  | single (payload : Dict String Json)
  | batch (analyzer : String) (totalFindings traceCount analyzedTraceCount failedTraceCount : ℕ)
      (traceResults : List TraceResult)

/-- Paths, texts, `_capture_summary`, and writing the report, which raises an `OSError`, `TypeError` or
`ValueError` if it fails. -/
structure TraceEnv where
  abspath : String → String
  basename : String → String
  relpath : List String → String → String
  repr : String → String
  jsonText : Json → String
  captureSummary : AnalyzerOutput → Except String (Dict String Json)
  persist : TraceReport → Except String ArtifactRef

def stripped (s : String) : String := String.ofList (Amdgcn.strip s.toList)

/-- `a or b` for texts. -/
def orElse (a b : String) : String := if a = "" then b else a

def TraceAnalyzer.analyzerName (a : TraceAnalyzer) : String :=
  if a.isDefault then "data_race"
  else orElse (stripped (a.name.getD "")) (orElse (stripped a.typeName) "trace_analyzer")

def joined (texts : List String) : String := "; ".intercalate texts

/-! ### One file -/

structure DetectorProjection where
  summaries : List TraceDetectorSummary
  findingGroups : List FindingGroup
  totalFindings : ℕ
  errors : List String

/-- `_project_trace_detectors`, from a detector index on. -/
def projectDetectors (traceFile : String) : ℕ → List AnalysisResult → DetectorProjection → DetectorProjection
  | _, [], p => p
  | i, result :: results, p =>
    projectDetectors traceFile (i + 1) results <|
      match summaryOf result traceFile with
      | .error e => { p with errors := p.errors ++ ["detector " ++ toString i ++ " summary: " ++ e] }
      | .ok summary =>
        { p with
          summaries := p.summaries ++ [summary]
          findingGroups := p.findingGroups ++ [(result, traceFile)]
          totalFindings := p.totalFindings + result.findings.length }

def projectTraceDetectors (results : List AnalysisResult) (traceFile : String) : DetectorProjection :=
  projectDetectors traceFile 0 results ⟨[], [], 0, []⟩

def failedProjection (output : Option AnalyzerOutput) (analyzer : String) (confirmed : Bool) (error : String) :
    TraceProjection where
  analyzer := analyzer
  analyzerConfirmed := confirmed
  summaries := []
  findingGroups := []
  totalFindings := 0
  warnings := (output.map AnalyzerOutput.warnings).getD []
  payload := output.bind AnalyzerOutput.payload
  error := some error

section

variable (env : TraceEnv)

/-- The summary in place of one that raises. -/
def summaryUnavailable : Json :=
  .obj [("static_context_status", .str "summary_unavailable"),
    ("notes", .arr [.str "Capture summary unavailable; consult the lossless analysis artifact."])]

def withCaptureSummary (output : AnalyzerOutput) (payload : Dict String Json) : Dict String Json :=
  match env.captureSummary output with
  | .ok summary =>
    if summary.entries = [] then payload else payload.insert "capture_summary" (.obj summary.entries)
  | .error _ => payload.insert "capture_summary" summaryUnavailable

variable (a : TraceAnalyzer)

def analyzeTraceFile (path traceFile : String) (expectedAnalyzer : Option String)
    (fallbackAnalyzer : String) : TraceProjection :=
  let expected := expectedAnalyzer.getD fallbackAnalyzer
  match a.analyze path with
  | .error e => failedProjection none expected false e
  | .ok output =>
    let analyzer := stripped output.analyzer
    if analyzer = "" then
      failedProjection (some output) expected false "deterministic analyzer returned an empty identity"
    else if expectedAnalyzer.any (· ≠ analyzer) then
      failedProjection (some output) analyzer false ("analyzer identity changed from " ++
        env.repr (expectedAnalyzer.getD "") ++ " to " ++ env.repr analyzer)
    else
      match output.payload with
      | none =>
        failedProjection (some output) analyzer true "deterministic analyzer returned no report payload"
      | some payload =>
        let p := projectTraceDetectors output.detectorResults traceFile
        { analyzer := analyzer
          analyzerConfirmed := true
          summaries := p.summaries
          findingGroups := p.findingGroups
          totalFindings := p.totalFindings
          warnings := output.warnings ++ p.errors
          payload := some (withCaptureSummary env output payload)
          error := if p.errors = [] then none else some ("detector projection failed: " ++ joined p.errors) }

/-! ### All files -/

structure TraceBatch where
  analyzer : Option String
  summaries : List TraceDetectorSummary
  findingGroups : List FindingGroup
  totalFindings : ℕ
  warnings : List String
  failures : List String
  traceResults : List TraceResult
  singletonPayload : Option (Dict String Json)

/-- One file of `_analyze_trace_files`. -/
def TraceBatch.add (only : Bool) (batch : TraceBatch) (file : String × String) : TraceBatch :=
  let p := analyzeTraceFile env a file.1 file.2 batch.analyzer a.analyzerName
  { analyzer := if p.analyzerConfirmed ∧ batch.analyzer = none then some p.analyzer else batch.analyzer
    summaries := batch.summaries ++ p.summaries
    findingGroups := batch.findingGroups ++ p.findingGroups
    totalFindings := batch.totalFindings + p.totalFindings
    warnings := batch.warnings ++ p.warnings.map (file.2 ++ ": " ++ ·)
    failures := batch.failures ++ (p.error.map (file.2 ++ ": " ++ ·)).toList
    traceResults := batch.traceResults ++ [⟨file.2, p⟩]
    singletonPayload := if only then p.payload else batch.singletonPayload }

def analyzeTraceFiles (tracePaths traceFiles : List String) : TraceBatch :=
  (tracePaths.zip traceFiles).foldl (TraceBatch.add env a (tracePaths.length = 1))
    ⟨none, [], [], 0, [], [], [], none⟩

def traceFileLabels (tracePaths : List String) : List String :=
  let basenames := tracePaths.map env.basename
  if basenames.Nodup then basenames else tracePaths.map (env.relpath tracePaths)

/-! ### The evidence -/

/-- `TraceAnalysisEvidence.__post_init__`. -/
def TraceAnalysisEvidence.postInit (e : TraceAnalysisEvidence) : Except String TraceAnalysisEvidence :=
  if blank e.analyzer then .error "trace analysis requires analyzer identity"
  else if e.totalFindings < 0 then .error "total_findings must be non-negative"
  else if e.totalFindings < e.findings.length then
    .error "total_findings cannot be smaller than sampled findings"
  else .ok e

def TraceResult.captureSummary (r : TraceResult) : Option Json :=
  (r.projection.payload.bind fun payload => payload.get? "capture_summary").filter Json.truthy

def typeName : Json → String
  | .null => "NoneType"
  | .bool _ => "bool"
  | .int _ => "int"
  | .float _ => "float"
  | .str _ => "str"
  | .arr _ => "list"
  | .obj _ => "dict"

/-- `{"trace_file": ..., **summary}`; what is no mapping raises. -/
def captureEntry (env : TraceEnv) (traceFile : String) : Json → Except String String
  | .obj fields =>
    .ok (env.jsonText (.obj (fields.foldl (fun d f => d.insert f.1 f.2)
      (Dict.empty.insert "trace_file" (.str traceFile))).entries))
  | summary => .error ("'" ++ typeName summary ++ "' object is not a mapping")

def captureEntries (results : List TraceResult) : Except String (List String) :=
  (results.filterMap fun r => r.captureSummary.map fun summary => (r.traceFile, summary)).mapM fun entry =>
    captureEntry env entry.1 entry.2

def maxCaptureSummaries : ℕ := 4

/-- The error with what persisting the report raised. -/
def persistenceError (error : Option String) : Except String ArtifactRef → Option String
  | .ok _ => error
  | .error e =>
    let persistence := "could not persist deterministic trace analysis: " ++ e
    some (error.elim persistence fun error => error ++ "; " ++ persistence)

def finishTraceAnalysis (tracePaths : List String) (fallbackAnalyzerName : String) (batch : TraceBatch)
    (maxFindings : ℤ) : Except String TraceAnalysisEvidence := do
  let sample := sampleFindings batch.findingGroups maxFindings
  let failures :=
    if sample.errors = [] then batch.failures
    else batch.failures ++ ["compact finding projection: " ++ joined sample.errors]
  let evidence : TraceAnalysisEvidence :=
    { analyzer := batch.analyzer.getD fallbackAnalyzerName
      executionStatus := .infraError
      detectorSummaries := batch.summaries
      findings := sample.sampled
      totalFindings := batch.totalFindings
      warnings := batch.warnings ++ sample.errors
      artifact := none
      error := none
      captureSummaries := []
      omittedCaptureSummaries := 0 }
  if tracePaths.length = 1 ∧ batch.singletonPayload = none then
    TraceAnalysisEvidence.postInit
      { evidence with
        error := some ("deterministic trace analysis failed: " ++
          failures.headD "analyzer returned no report payload") }
  else
    let failed := (batch.traceResults.filter fun r => r.projection.error.isSome).length
    let report :=
      match batch.singletonPayload with
      | some payload => TraceReport.single payload
      | none => TraceReport.batch evidence.analyzer batch.totalFindings tracePaths.length
          (tracePaths.length - failed) failed batch.traceResults
    let error :=
      if failures = [] then none
      else some ("deterministic trace analysis failed for " ++ toString failures.length ++ " trace(s): " ++
        joined failures)
    let written := env.persist report
    let captures ← captureEntries env batch.traceResults
    TraceAnalysisEvidence.postInit
      { evidence with
        executionStatus := if written.isOk ∧ failures = [] then .succeeded else .infraError
        artifact := written.toOption
        error := persistenceError error written
        captureSummaries := captures.take maxCaptureSummaries
        omittedCaptureSummaries := (captures.length - maxCaptureSummaries : ℕ) }

def sortedPaths (rawPaths : List String) : List String :=
  sortOn (fun path => toLex (env.basename path, path)) (rawPaths.map env.abspath).dedup

def runTraceAnalysis (rawPaths : List String) (maxFindings : ℤ) :
    Except String TraceAnalysisEvidence :=
  if maxFindings < 0 then .error "max_findings must be non-negative"
  else
    let tracePaths := sortedPaths env rawPaths
    if tracePaths = [] then
      TraceAnalysisEvidence.postInit
        { analyzer := a.analyzerName
          executionStatus := .infraError
          detectorSummaries := []
          findings := []
          totalFindings := 0
          warnings := []
          artifact := none
          error := some "deterministic trace analysis requires at least one trace"
          captureSummaries := []
          omittedCaptureSummaries := 0 }
    else
      finishTraceAnalysis env tracePaths a.analyzerName
        (analyzeTraceFiles env a tracePaths (traceFileLabels env tracePaths)) maxFindings

end

/-! ### The analyzer -/

theorem not_blank_stripped {s : String} (h : stripped s ≠ "") : blank (stripped s) = false := by
  have hne : (s.toList.dropWhile Amdgcn.isSpace).reverse.dropWhile Amdgcn.isSpace ≠ [] := by
    intro hnil
    refine h ?_
    rw [stripped, Amdgcn.strip, hnil]
    rfl
  rw [blank, stripped, String.toList_ofList, Amdgcn.strip, List.all_eq_false]
  refine ⟨_, List.mem_reverse.mpr (List.head_mem hne), ?_⟩
  rw [List.head_dropWhile_not Amdgcn.isSpace]
  exact Bool.false_ne_true

theorem not_blank_orElse {a b : String} (ha : a ≠ "" → blank a = false) (hb : blank b = false) :
    blank (orElse a b) = false := by
  unfold orElse
  split_ifs with h
  · exact hb
  · exact ha h

theorem not_blank_analyzerName (a : TraceAnalyzer) : blank a.analyzerName = false := by
  unfold TraceAnalyzer.analyzerName
  split_ifs
  · decide
  · exact not_blank_orElse not_blank_stripped (not_blank_orElse not_blank_stripped (by decide))

/-! ### The findings of the files -/

def findingCount (groups : List FindingGroup) : ℕ := (groups.map fun g => g.1.findings.length).sum

@[simp] theorem findingCount_append (xs ys : List FindingGroup) :
    findingCount (xs ++ ys) = findingCount xs + findingCount ys := by
  simp [findingCount]

theorem projectDetectors_total {traceFile : String} {i : ℕ} {results : List AnalysisResult}
    {p : DetectorProjection} (h : p.totalFindings = findingCount p.findingGroups) :
    (projectDetectors traceFile i results p).totalFindings =
      findingCount (projectDetectors traceFile i results p).findingGroups := by
  induction results generalizing i p with
  | nil => exact h
  | cons result results ih =>
    refine ih ?_
    cases summaryOf result traceFile with
    | error e => exact h
    | ok summary =>
      rw [findingCount_append, ← h]
      rfl

/-- A capture summary is a mapping, or stands for none. -/
def MappingCapture (payload : Dict String Json) : Prop :=
  ∀ v, payload.get? "capture_summary" = some v → v.truthy → ∃ fields, v = .obj fields

/-- The analyzer puts no other capture summary into its payloads. -/
def TraceAnalyzer.MappingCaptures (a : TraceAnalyzer) : Prop :=
  ∀ path output payload, a.analyze path = .ok output → output.payload = some payload → MappingCapture payload

theorem mappingCapture_insert (payload : Dict String Json) (fields : List (String × Json)) :
    MappingCapture (payload.insert "capture_summary" (.obj fields)) := by
  intro v hv _
  rw [Dict.get?_insert, if_pos rfl] at hv
  exact ⟨fields, (Option.some.inj hv).symm⟩

variable {env : TraceEnv}

theorem mappingCapture_withCaptureSummary {output : AnalyzerOutput} {payload : Dict String Json}
    (h : MappingCapture payload) : MappingCapture (withCaptureSummary env output payload) := by
  unfold withCaptureSummary
  split
  · split_ifs
    · exact h
    · exact mappingCapture_insert _ _
  · exact mappingCapture_insert _ _

/-- What holds of the projection of every file. -/
structure TraceProjection.Sound (p : TraceProjection) : Prop where
  total : p.totalFindings = findingCount p.findingGroups
  analyzer : p.analyzerConfirmed → blank p.analyzer = false
  capture : ∀ payload ∈ p.payload, MappingCapture payload

theorem failedProjection_sound {output : Option AnalyzerOutput} {analyzer error : String} {confirmed : Bool}
    (hanalyzer : confirmed → blank analyzer = false)
    (hcapture : ∀ o ∈ output, ∀ payload ∈ o.payload, MappingCapture payload) :
    (failedProjection output analyzer confirmed error).Sound := by
  refine ⟨rfl, hanalyzer, fun payload hpayload => ?_⟩
  obtain ⟨o, ho, hpayload⟩ := Option.bind_eq_some_iff.mp hpayload
  exact hcapture o ho payload hpayload

theorem analyzeTraceFile_sound {a : TraceAnalyzer} (h : a.MappingCaptures) (path traceFile : String)
    (expected : Option String) (fallback : String) :
    (analyzeTraceFile env a path traceFile expected fallback).Sound := by
  unfold analyzeTraceFile
  cases hanalyze : a.analyze path with
  | error e => exact failedProjection_sound (fun h => by cases h) fun o ho => by cases ho
  | ok output =>
    have hcapture : ∀ o ∈ some output, ∀ payload ∈ o.payload, MappingCapture payload := by
      rintro o ⟨⟩ payload hpayload
      exact h path output payload hanalyze hpayload
    dsimp only
    by_cases hempty : stripped output.analyzer = ""
    · rw [if_pos hempty]
      exact failedProjection_sound (fun h => by cases h) hcapture
    · rw [if_neg hempty]
      split
      · exact failedProjection_sound (fun h => by cases h) hcapture
      · cases hpayload : output.payload with
        | none => exact failedProjection_sound (fun _ => not_blank_stripped hempty) hcapture
        | some payload =>
          refine ⟨projectDetectors_total rfl, fun _ => not_blank_stripped hempty, ?_⟩
          rintro _ ⟨⟩
          exact mappingCapture_withCaptureSummary (h path output payload hanalyze hpayload)

/-! ### The batch -/

/-- What holds of the batch after every file. -/
structure TraceBatch.Sound (b : TraceBatch) : Prop where
  total : b.totalFindings = findingCount b.findingGroups
  analyzer : ∀ name ∈ b.analyzer, blank name = false
  capture : ∀ r ∈ b.traceResults, r.projection.Sound

theorem TraceBatch.Sound.add {a : TraceAnalyzer} {only : Bool} {b : TraceBatch} (hb : b.Sound)
    (h : a.MappingCaptures) (file : String × String) : (b.add env a only file).Sound := by
  have hp : (analyzeTraceFile env a file.1 file.2 b.analyzer a.analyzerName).Sound :=
    analyzeTraceFile_sound h _ _ _ _
  refine ⟨?_, ?_, ?_⟩
  · simp only [TraceBatch.add, findingCount_append, hb.total, hp.total]
  · intro name hname
    simp only [TraceBatch.add] at hname
    split_ifs at hname with hconfirmed
    · cases hname
      exact hp.analyzer hconfirmed.1
    · exact hb.analyzer name hname
  · intro r hr
    obtain hr | hr := List.mem_append.mp hr
    · exact hb.capture r hr
    · obtain rfl := List.mem_singleton.mp hr
      exact hp

theorem analyzeTraceFiles_sound {a : TraceAnalyzer} (h : a.MappingCaptures)
    (tracePaths traceFiles : List String) :
    (analyzeTraceFiles env a tracePaths traceFiles).Sound := by
  unfold analyzeTraceFiles
  refine List.foldlRecOn (motive := TraceBatch.Sound) _ _ ?_ fun b hb file _ => hb.add h file
  exact ⟨rfl, fun name hname => (by cases hname), fun r hr => (by cases hr)⟩

/-! ### The evidence -/

theorem captureEntries_ok {results : List TraceResult} (h : ∀ r ∈ results, r.projection.Sound) :
    ∃ captures, captureEntries env results = .ok captures := by
  have hentries : ∀ entry ∈ results.filterMap fun r => r.captureSummary.map fun summary => (r.traceFile, summary),
      ∃ text, captureEntry env entry.1 entry.2 = .ok text := by
    intro entry hentry
    obtain ⟨r, hr, hsummary⟩ := List.mem_filterMap.mp hentry
    obtain ⟨summary, hsome, rfl⟩ := Option.map_eq_some_iff.mp hsummary
    obtain ⟨hbind, htruthy⟩ := Option.filter_eq_some_iff.mp hsome
    obtain ⟨payload, hpayload, hget⟩ := Option.bind_eq_some_iff.mp hbind
    obtain ⟨fields, rfl⟩ := (h r hr).capture payload hpayload summary hget htruthy
    exact ⟨_, rfl⟩
  obtain ⟨captures, hcaptures⟩ := exists_forall₂.mpr hentries
  exact ⟨captures, mapM_ok.mpr hcaptures⟩

theorem length_sampleFindings_le (groups : List FindingGroup) (maxFindings : ℤ) :
    (sampleFindings groups maxFindings).sampled.length ≤ findingCount groups := by
  obtain ⟨picks, reads, hfair⟩ := sampleFindings_fair groups maxFindings
  have hprojectable : (groups.flatMap FindingGroup.projectable).length ≤ findingCount groups := by
    rw [List.length_flatMap, findingCount]
    refine List.sum_le_sum fun g _ => ?_
    refine (List.length_filterMap_le _ _).trans ?_
    rw [FindingGroup.items, List.length_map]
  rw [hfair.total]
  exact (Nat.min_le_right _ _).trans hprojectable

theorem postInit_ok {e : TraceAnalysisEvidence} (hname : blank e.analyzer = false)
    (htotal : (e.findings.length : ℤ) ≤ e.totalFindings) : e.postInit = .ok e := by
  unfold TraceAnalysisEvidence.postInit
  rw [if_neg (by simp [hname]), if_neg (by omega), if_neg (by omega)]

theorem finishTraceAnalysis_ok {tracePaths : List String} {fallback : String} {batch : TraceBatch}
    {maxFindings : ℤ} (hbatch : batch.Sound) (hfallback : blank fallback = false) :
    ∃ evidence, finishTraceAnalysis env tracePaths fallback batch maxFindings = .ok evidence ∧
      evidence.findings = (sampleFindings batch.findingGroups maxFindings).sampled ∧
      evidence.totalFindings = findingCount batch.findingGroups := by
  have hname : blank (batch.analyzer.getD fallback) = false := by
    cases h : batch.analyzer with
    | none => exact hfallback
    | some name => exact hbatch.analyzer name h
  have htotal : ((sampleFindings batch.findingGroups maxFindings).sampled.length : ℤ) ≤ batch.totalFindings := by
    rw [hbatch.total]
    exact_mod_cast length_sampleFindings_le batch.findingGroups maxFindings
  have hcount : (batch.totalFindings : ℤ) = findingCount batch.findingGroups := by rw [hbatch.total]
  obtain ⟨captures, hcaptures⟩ : ∃ captures, captureEntries env batch.traceResults = .ok captures :=
    captureEntries_ok hbatch.capture
  unfold finishTraceAnalysis
  by_cases hsingle : tracePaths.length = 1 ∧ batch.singletonPayload = none
  · simp only [if_pos hsingle]
    exact ⟨_, postInit_ok hname htotal, rfl, hcount⟩
  · simp only [if_neg hsingle, hcaptures, ok_bind]
    exact ⟨_, postInit_ok hname htotal, rfl, hcount⟩

/-- A run with a non-negative limit builds evidence, of a fair sample of the findings that it counts. -/
theorem trace_evidence_sampled (env : TraceEnv) (a : TraceAnalyzer) (rawPaths : List String) (maxFindings : ℤ)
    (hmax : 0 ≤ maxFindings) (hcapture : a.MappingCaptures) :
    (∀ groups : List FindingGroup, ∃ picks reads,
      FairSample groups maxFindings (sampleFindings groups maxFindings).sampled picks reads) ∧
    ∃ evidence, runTraceAnalysis env a rawPaths maxFindings = .ok evidence ∧
      (evidence.findings.length : ℤ) ≤ evidence.totalFindings ∧
      ∃ groups, evidence.findings = (sampleFindings groups maxFindings).sampled ∧
        evidence.totalFindings = findingCount groups := by
  refine ⟨fun groups => sampleFindings_fair groups maxFindings, ?_⟩
  have hname := not_blank_analyzerName a
  unfold runTraceAnalysis
  rw [if_neg (by omega)]
  dsimp only
  split_ifs with hempty
  · refine ⟨_, postInit_ok hname le_rfl, le_rfl, [], ?_, rfl⟩
    exact (List.eq_nil_of_length_eq_zero (Nat.le_zero.mp (length_sampleFindings_le [] maxFindings))).symm
  · set batch := analyzeTraceFiles env a (sortedPaths env rawPaths)
      (traceFileLabels env (sortedPaths env rawPaths))
    have hbatch : batch.Sound := analyzeTraceFiles_sound hcapture _ _
    obtain ⟨evidence, hfinish, hfindings, htotal⟩ : ∃ evidence, finishTraceAnalysis env (sortedPaths env rawPaths)
        a.analyzerName batch maxFindings = .ok evidence ∧ _ := finishTraceAnalysis_ok hbatch hname
    refine ⟨evidence, hfinish, ?_, _, hfindings, htotal⟩
    rw [hfindings, htotal]
    exact_mod_cast length_sampleFindings_le _ maxFindings

/-- Paths without links or dots, and no capture summary. -/
def plainEnv : TraceEnv where
  abspath := id
  basename path := String.ofList (path.toList.reverse.takeWhile (· ≠ '/')).reverse
  relpath _ := id
  repr s := "'" ++ s ++ "'"
  jsonText _ := ""
  captureSummary _ := .ok Dict.empty
  persist _ := .error "[Errno 30] Read-only file system"

def raceFinding (message : String) : DetectorFinding := ⟨"error", "race", message, [[0, 0, 0]], [0], [16], [3], []⟩

/-- Two detectors on every trace but one, on which the analyzer raises. The second finding of the first detector
cannot be read. -/
def twoDetectors : TraceAnalyzer where
  isDefault := false
  name := some "detect"
  typeName := "function"
  analyze path :=
    if path = "/tmp/c.ndjson" then .error "truncated trace"
    else .ok
      { analyzer := "detect"
        detectorResults :=
          [⟨.ok ⟨"detect", "race", "found", "error", "three races"⟩,
              [.ok (raceFinding "a"), .error "no address", .ok (raceFinding "b")]⟩,
            ⟨.ok ⟨"detect", "hang", "found", "error", "one hang"⟩, [.ok (raceFinding "c")]⟩]
        warnings := []
        payload := some Dict.empty }

theorem sortedPaths_three : sortedPaths plainEnv ["/tmp/c.ndjson", "/tmp/a.ndjson", "/tmp/b.ndjson"] =
    ["/tmp/a.ndjson", "/tmp/b.ndjson", "/tmp/c.ndjson"] := by
  have hincreasing : IncreasingBy (fun path => toLex (plainEnv.basename path, path))
      ["/tmp/a.ndjson", "/tmp/b.ndjson", "/tmp/c.ndjson"] := by
    simp only [IncreasingBy, List.pairwise_cons, Prod.Lex.toLex_lt_toLex, String.lt_iff_toList_lt]
    decide
  exact (sortOn_congr (by decide) (by decide)).trans (sortOn_eq_self hincreasing)

/-- Three files, the last one without a projection: of eight findings three are sampled. -/
theorem trace_evidence_sampled_three : ∃ evidence,
    runTraceAnalysis plainEnv twoDetectors ["/tmp/c.ndjson", "/tmp/a.ndjson", "/tmp/b.ndjson"] 3 = .ok evidence ∧
      (evidence.findings.length : ℤ) ≤ evidence.totalFindings ∧
      evidence.findings.length = 3 ∧ evidence.totalFindings = 8 := by
  have hcapture : twoDetectors.MappingCaptures := by
    intro path output payload h hpayload v hv
    simp only [twoDetectors] at h
    split_ifs at h
    cases h
    cases hpayload
    cases hv
  obtain ⟨evidence, hrun, hle, -⟩ :=
    (trace_evidence_sampled plainEnv twoDetectors ["/tmp/c.ndjson", "/tmp/a.ndjson", "/tmp/b.ndjson"] 3
      (by decide) hcapture).2
  have hcounts : (runTraceAnalysis plainEnv twoDetectors
      ["/tmp/c.ndjson", "/tmp/a.ndjson", "/tmp/b.ndjson"] 3).toOption.map
        (fun e => (e.findings.length, e.totalFindings)) = some (3, 8) := by
    unfold runTraceAnalysis
    rw [sortedPaths_three]
    decide +kernel
  rw [hrun] at hcounts
  obtain ⟨hlength, htotal⟩ := Prod.mk.inj (Option.some.inj hcounts)
  exact ⟨evidence, hrun, hle, hlength, htotal⟩

def textCapture : TraceAnalyzer where
  isDefault := false
  name := some "detect"
  typeName := "function"
  analyze _ := .ok
    { analyzer := "detect"
      detectorResults := []
      warnings := []
      payload := some (Dict.empty.insert "capture_summary" (.str "none")) }

/-- A negative limit is refused, and no sample has a negative length; a capture summary that is no mapping
raises. -/
theorem negative_limit_refused :
    ((sampleFindings [] (-1)).sampled.length : ℤ) ≠
        min (-1 : ℤ) (([] : List FindingGroup).flatMap FindingGroup.projectable).length ∧
      runTraceAnalysis plainEnv twoDetectors ["/tmp/a.ndjson"] (-1) = .error "max_findings must be non-negative" ∧
      runTraceAnalysis plainEnv textCapture ["/tmp/a.ndjson"] 32 =
        .error "'str' object is not a mapping" := by
  refine ⟨?_, rfl, rfl⟩
  have hnil : (sampleFindings [] (-1)).sampled.length = 0 := Nat.le_zero.mp (length_sampleFindings_le [] (-1))
  rw [hnil]
  decide

end CuTracer.Service
