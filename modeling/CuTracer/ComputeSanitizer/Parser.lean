import CuTracer.ComputeSanitizer.Patterns

/-! The parser of Compute Sanitizer logs: of racecheck, whose findings are pairs of accesses, and
of the tools that report single errors. -/

namespace CuTracer.ComputeSanitizer

/-! ### Records -/

inductive RacecheckSeverity where
  | error | warning
  deriving DecidableEq

inductive RacecheckParseDiagnostic where
  | missingSummary | malformedSummary | multipleSummaries | incompleteFinding | unparsedFinding
  | summaryCountMismatch | summaryFindingMismatch | internalToolError
  deriving DecidableEq

def RacecheckParseDiagnostic.value : RacecheckParseDiagnostic → String
  | .missingSummary => "missing_summary"
  | .malformedSummary => "malformed_summary"
  | .multipleSummaries => "multiple_summaries"
  | .incompleteFinding => "incomplete_finding"
  | .unparsedFinding => "unparsed_finding"
  | .summaryCountMismatch => "summary_count_mismatch"
  | .summaryFindingMismatch => "summary_finding_mismatch"
  | .internalToolError => "internal_tool_error"

inductive CheckerTool where
  | initcheck | memcheck | racecheck | synccheck
  deriving DecidableEq

def CheckerTool.value : CheckerTool → String
  | .initcheck => "initcheck"
  | .memcheck => "memcheck"
  | .racecheck => "racecheck"
  | .synccheck => "synccheck"

structure RacecheckAccess where
  role : String
  accessType : Text
  function : Text
  offset : Text
  file : Text
  line : ℕ
  hazards : Option ℕ

structure RacecheckFinding where
  severity : RacecheckSeverity
  accesses : List RacecheckAccess
  rawBlock : Text

def RacecheckFinding.maxHazards (f : RacecheckFinding) : Option ℕ :=
  (f.accesses.filterMap RacecheckAccess.hazards).max?

def RacecheckFinding.accessKinds (f : RacecheckFinding) : List Text :=
  (f.accesses.map RacecheckAccess.accessType).eraseDups

structure RacecheckInvalidAccess where
  message : Text
  accessType : Text
  sizeBytes : ℕ
  access : Option RacecheckAccess
  rawBlock : Text

structure RacecheckSummary where
  totalHazards : ℕ
  errors : ℕ
  warnings : ℕ
  raw : Text

structure RacecheckParseResult where
  findings : List RacecheckFinding
  summary : Option RacecheckSummary
  diagnostics : List RacecheckParseDiagnostic
  outputTruncated : Bool
  invalidAccesses : List RacecheckInvalidAccess

structure CheckerSite where
  symbol : Text
  offset : Option Text
  file : Option Text
  line : Option ℕ

/-- One block of diagnostics, of any tool. -/
structure CheckerIssue where
  message : Text
  sites : List CheckerSite
  severity : RacecheckSeverity := .error
  hazards : Option ℕ := none
  rawBlock : Text

def CheckerIssue.primarySite (issue : CheckerIssue) : Option CheckerSite := issue.sites.head?

structure CheckerSummary where
  errors : ℕ
  warnings : ℕ := 0
  totalHazards : ℕ := 0
  notPrinted : Option ℕ := none
  raw : Text

def CheckerSummary.isPositive (s : CheckerSummary) : Bool :=
  s.errors > 0 || s.warnings > 0 || s.totalHazards > 0

def CheckerSummary.isZero (s : CheckerSummary) : Bool := !s.isPositive

structure CheckerParseResult where
  tool : CheckerTool
  issues : List CheckerIssue
  summary : Option CheckerSummary
  diagnostics : List RacecheckParseDiagnostic
  outputTruncated : Bool

def CheckerParseResult.isComplete (r : CheckerParseResult) : Bool :=
  r.summary.isSome && r.diagnostics.isEmpty

def diagnose (diagnostics : List RacecheckParseDiagnostic) (issue : RacecheckParseDiagnostic) :
    List RacecheckParseDiagnostic :=
  if issue ∈ diagnostics then diagnostics else diagnostics ++ [issue]

/-- `"\n".join(lines)`. -/
def joinLines (lines : List Text) : Text := ['\n'].intercalate lines

/-- How many lines after a message may still carry its site. -/
def siteLookahead : ℕ := 3

def isInternalToolError (body : Text) : Bool := startsWith "Internal Sanitizer Error:" body

/-! ### Racecheck -/

section Parser

variable (u : CharTable)

attribute [local simp] Regex.chain Regex.captures accessAt inFile

/-- `_build_access` of the access in a header, or of one that conflicts with it. -/
def headerAccess (m : Regex.Match (headerRe u)) : RacecheckAccess where
  role := "primary"
  accessType := m.get "type" (by simp [headerRe])
  function := m.get "func" (by simp [headerRe])
  offset := m.get "offset" (by simp [headerRe])
  file := m.get "file" (by simp [headerRe])
  line := u.int (m.get "line" (by simp [headerRe]))
  hazards := (m.get? "hazards").map u.int

def conflictAccess (m : Regex.Match (conflictRe u)) : RacecheckAccess where
  role := "conflict"
  accessType := m.get "type" (by simp [conflictRe])
  function := m.get "func" (by simp [conflictRe])
  offset := m.get "offset" (by simp [conflictRe])
  file := m.get "file" (by simp [conflictRe])
  line := u.int (m.get "line" (by simp [conflictRe]))
  hazards := (m.get? "hazards").map u.int

def buildFinding (header : Regex.Match (headerRe u)) (conflicts : List (Regex.Match (conflictRe u)))
    (rawLines : List Text) : RacecheckFinding where
  severity :=
    if header.get "level" (by simp [headerRe]) = "Error".toList then .error
    else .warning
  accesses := headerAccess u header :: conflicts.map (conflictAccess u)
  rawBlock := joinLines rawLines

def buildInvalidAccess (m : Regex.Match (invalidAccessRe u))
    (site : Option (Regex.Match (invalidSiteRe u))) (rawLines : List Text) : RacecheckInvalidAccess :=
  let accessType := m.get "type" (by simp [invalidAccessRe])
  let sizeBytes := u.int (m.get "size" (by simp [invalidAccessRe]))
  { message := "Potential invalid __shared__ ".toList ++ accessType ++ " of size ".toList ++
      (toString sizeBytes).toList ++ " bytes".toList
    accessType := accessType
    sizeBytes := sizeBytes
    access := site.map fun s =>
      { role := "primary"
        accessType := accessType
        function := s.get "func" (by simp [invalidSiteRe])
        offset := s.get "offset" (by simp [invalidSiteRe])
        file := (s.get? "file").getD []
        line := ((s.get? "line").map u.int).getD 0
        hazards := none }
    rawBlock := joinLines rawLines }

def summaryConsistencyDiagnostics (summary : RacecheckSummary) (findings : List RacecheckFinding)
    (invalidAccesses : List RacecheckInvalidAccess) : List RacecheckParseDiagnostic :=
  let totalIsZero : Bool := summary.totalHazards = 0
  let severitiesAreZero : Bool := summary.errors = 0 && summary.warnings = 0
  let summaryIsPositive := !(totalIsZero && severitiesAreZero)
  let reportedAnything := !findings.isEmpty || !invalidAccesses.isEmpty
  let errorsMismatch := findings.any (fun f => f.severity = .error) && summary.errors = 0
  let warningsMismatch := findings.any (fun f => f.severity = .warning) && summary.warnings = 0
  let missingReport := summaryIsPositive && !reportedAnything
  let unexpectedReport := !summaryIsPositive && reportedAnything
  (if totalIsZero != severitiesAreZero then [.summaryCountMismatch] else []) ++
    if missingReport || unexpectedReport || errorsMismatch || warningsMismatch then
      [.summaryFindingMismatch]
    else []

structure RacecheckParser where
  findings : List RacecheckFinding := []
  invalidAccesses : List RacecheckInvalidAccess := []
  diagnostics : List RacecheckParseDiagnostic := []
  summary : Option RacecheckSummary := none
  summaryMarkers : ℕ := 0
  outputTruncated : Bool := false
  header : Option (Regex.Match (headerRe u)) := none
  conflicts : List (Regex.Match (conflictRe u)) := []
  rawLines : List Text := []
  pendingInvalid : Option (Regex.Match (invalidAccessRe u)) := none
  invalidLookahead : ℕ := 0

namespace RacecheckParser

variable {u}

def diagnose (p : RacecheckParser u) (issue : RacecheckParseDiagnostic) : RacecheckParser u :=
  { p with diagnostics := ComputeSanitizer.diagnose p.diagnostics issue }

variable (p : RacecheckParser u)

def flushHeader : RacecheckParser u :=
  match p.header with
  | none => p
  | some header =>
    if p.conflicts.isEmpty then p.diagnose .incompleteFinding
    else { p with findings := p.findings ++ [buildFinding u header p.conflicts p.rawLines] }

def flushInvalid : RacecheckParser u :=
  match p.pendingInvalid with
  | none => p
  | some m => { p with invalidAccesses := p.invalidAccesses ++ [buildInvalidAccess u m none p.rawLines] }

def flush : RacecheckParser u :=
  { p.flushHeader.flushInvalid with
    header := none, conflicts := [], rawLines := [], pendingInvalid := none, invalidLookahead := 0 }

def consumeSummary (body : Text) : Option (RacecheckParser u) :=
  if contains "RACECHECK SUMMARY:" body then
    let p := p.flush
    let p := { p with summaryMarkers := p.summaryMarkers + 1 }
    match (summaryRe u).fullMatch body with
    | some m =>
      let summary : RacecheckSummary :=
        { totalHazards := u.int (m.get "total" (by simp [summaryRe]))
          errors := u.int (m.get "errors" (by simp [summaryRe]))
          warnings := u.int (m.get "warnings" (by simp [summaryRe]))
          raw := body }
      some { p with summary := some summary }
    | none => some (p.diagnose .malformedSummary)
  else none

/-- A line while the site of an invalid access is awaited, and whether it is consumed. -/
def consumePending (m : Regex.Match (invalidAccessRe u)) (body : Text) : RacecheckParser u × Bool :=
  if ((headerRe u).matchStart body).isSome then (p.flush, false)
  else
    match (invalidSiteRe u).matchStart body with
    | some site =>
      ({ p with
          invalidAccesses := p.invalidAccesses ++
            [buildInvalidAccess u m (some site) (p.rawLines ++ [body])]
          pendingInvalid := none
          rawLines := [] }, true)
    | none =>
      let p := { p with invalidLookahead := p.invalidLookahead + 1 }
      if p.invalidLookahead ≤ siteLookahead then ({ p with rawLines := p.rawLines ++ [body] }, true)
      else (p.flush, false)

/-- The parser after a line, and whether the line is consumed. -/
def consumeAuxiliaryBlock (body : Text) : RacecheckParser u × Bool :=
  if startsWith "Warning: Maximum number of hazards reached" body then
    ({ p.flush with outputTruncated := true }, true)
  else
    match (invalidAccessRe u).matchStart body with
    | some m => ({ p.flush with pendingInvalid := some m, rawLines := [body] }, true)
    | none =>
      match p.pendingInvalid with
      | some m => p.consumePending m body
      | none => (p, false)

/-- A line that is neither a summary nor of another block. -/
def consumeFinding (body : Text) : RacecheckParser u :=
  match (headerRe u).matchStart body with
  | some m => { p.flush with header := some m, rawLines := [body] }
  | none =>
    if contains "Race reported between" body then p.flush.diagnose .unparsedFinding
    else if p.header.isNone then p
    else
      match (conflictRe u).matchStart body with
      | some m => { p with conflicts := p.conflicts ++ [m], rawLines := p.rawLines ++ [body] }
      | none =>
        (if startsWith "and " body && contains " access " body then p.diagnose .unparsedFinding
          else p).flush

def consume (line : Text) : RacecheckParser u :=
  match sanitizerBody line with
  | none => p
  | some body =>
    if isInternalToolError body then p.flush.diagnose .internalToolError
    else
      match p.consumeSummary body with
      | some p => p
      | none =>
        match p.consumeAuxiliaryBlock body with
        | (p, true) => p
        | (p, false) => p.consumeFinding body

def diagnoseMarkers : RacecheckParser u :=
  if p.summaryMarkers = 0 then p.diagnose .missingSummary
  else if p.summaryMarkers > 1 then p.diagnose .multipleSummaries
  else p

def finish : RacecheckParseResult :=
  let p := p.flush.diagnoseMarkers
  let p := match p.summary with
    | none => p
    | some summary =>
      (summaryConsistencyDiagnostics summary p.findings p.invalidAccesses).foldl diagnose p
  { findings := p.findings
    summary := p.summary
    diagnostics := p.diagnostics
    outputTruncated := p.outputTruncated
    invalidAccesses := p.invalidAccesses }

end RacecheckParser

def parseRacecheckLog (text : Text) : RacecheckParseResult :=
  ((splitLines text).foldl RacecheckParser.consume ({} : RacecheckParser u)).finish

/-! ### Single errors -/

def parseSite (raw : Text) : CheckerSite :=
  let text := removeSuffix (hazardSuffixRe u) (Amdgcn.strip raw)
  let source := (siteSourceRe u).matchStart text
  let text := match source with
    | some m => Amdgcn.strip (m.get "symbol" (by simp [siteSourceRe]))
    | none => text
  let offset := offsetRe.search none text
  { symbol := match offset with
      | some (c :: cs, _, _) => c :: cs
      | _ => text
    offset := match offset with
      | some (_ :: _, found, after) => some (found.tail ++ after)
      | _ => none
    file := source.map fun m => m.get "file" (by simp [siteSourceRe])
    line := source.map fun m =>
      u.int (m.get "line" (by simp [siteSourceRe])) }

variable (tool : CheckerTool)

def checkerMessage (body : Text) : Option Text :=
  match tool with
  | .initcheck => if startsWith "Uninitialized " body then some body else none
  | .synccheck =>
    if startsWith "Barrier error detected." body then
      some (if body.getLast? = some '.' then body.dropLast else body)
    else none
  | .memcheck =>
    if (memcheckMessageRe.matchStart body).isSome then
      some (removeSuffix memcheckAddressSuffixRe body)
    else none
  | .racecheck => none

/-- The sites after a message, and the lines that belong to it, after so many lines. -/
def sitesAfter (tool : CheckerTool) : ℕ → List (Option Text) → List CheckerSite × List Text
  | _, [] => ([], [])
  | n, none :: rest => sitesAfter tool n rest
  | n, some following :: rest =>
    if n + 1 > siteLookahead then ([], [])
    else if (checkerMessage tool following).isSome || contains "ERROR SUMMARY:" following then ([], [])
    else
      let (sites, lines) := sitesAfter tool (n + 1) rest
      (match siteRe.matchStart following with
        | some m => parseSite u (m.get "site" (by simp [siteRe])) :: sites
        | none => sites, following :: lines)

/-- `_checker_issue_at` a body before `rest`. -/
def checkerIssueAt (body : Text) (rest : List (Option Text)) : Option CheckerIssue :=
  (checkerMessage tool body).map fun message =>
    let (sites, lines) := sitesAfter u tool 0 rest
    { message := message, sites := sites, rawBlock := joinLines (body :: lines) }

structure ErrorCheckerParser where
  tool : CheckerTool
  issues : List CheckerIssue := []
  diagnostics : List RacecheckParseDiagnostic := []
  summary : Option CheckerSummary := none
  summaryMarkers : ℕ := 0
  notPrinted : Option ℕ := none
  outputTruncated : Bool := false

namespace ErrorCheckerParser

def diagnose (p : ErrorCheckerParser) (issue : RacecheckParseDiagnostic) : ErrorCheckerParser :=
  { p with diagnostics := ComputeSanitizer.diagnose p.diagnostics issue }

def consumeSummary (p : ErrorCheckerParser) (body : Text) : Option ErrorCheckerParser :=
  if contains "ERROR SUMMARY:" body then
    match (errorNotPrintedRe u).matchStart body with
    | some m =>
      let count := u.int (m.get "count" (by simp [errorNotPrintedRe]))
      some { p with outputTruncated := true, notPrinted := some count }
    | none =>
      let p := { p with summaryMarkers := p.summaryMarkers + 1 }
      match (errorSummaryRe u).matchStart body with
      | some m =>
        let errors := u.int (m.get "errors" (by simp [errorSummaryRe]))
        some { p with summary := some { errors := errors, raw := body } }
      | none => some (p.diagnose .malformedSummary)
  else none

def consumeIssue (p : ErrorCheckerParser) (body : Text) (rest : List (Option Text)) :
    ErrorCheckerParser :=
  match checkerIssueAt u p.tool body rest with
  | none => p
  | some issue =>
    let p :=
      if issue.sites.isEmpty && !(memcheckHostMessageRe.matchStart issue.message).isSome then
        p.diagnose .incompleteFinding
      else p
    { p with issues := p.issues ++ [issue] }

/-- A body before `rest`. -/
def consume (p : ErrorCheckerParser) (body : Text) (rest : List (Option Text)) : ErrorCheckerParser :=
  if isInternalToolError body then p.diagnose .internalToolError
  else
    match p.consumeSummary u body with
    | some p => p
    | none => p.consumeIssue u body rest

def consumeAll (p : ErrorCheckerParser) : List (Option Text) → ErrorCheckerParser
  | [] => p
  | none :: rest => p.consumeAll rest
  | some body :: rest => (p.consume u body rest).consumeAll rest

def diagnoseMarkers (p : ErrorCheckerParser) : ErrorCheckerParser :=
  if p.summaryMarkers = 0 then p.diagnose .missingSummary
  else if p.summaryMarkers > 1 then p.diagnose .multipleSummaries
  else p

/-- The summary with the count of what was not printed. -/
def fullSummary (p : ErrorCheckerParser) : Option CheckerSummary :=
  p.summary.map fun summary =>
    match p.notPrinted with
    | some count => { errors := summary.errors, notPrinted := some count, raw := summary.raw }
    | none => summary

def diagnoseSummary (p : ErrorCheckerParser) (summary : CheckerSummary) : ErrorCheckerParser :=
  if (summary.isPositive && p.issues.isEmpty && !p.outputTruncated) ||
      (summary.isZero && !p.issues.isEmpty) then
    p.diagnose .summaryFindingMismatch
  else p

def finish (p : ErrorCheckerParser) : CheckerParseResult :=
  let p := p.diagnoseMarkers
  let summary := p.fullSummary
  let p := match summary with
    | none => p
    | some summary => p.diagnoseSummary summary
  { tool := p.tool
    issues := p.issues
    summary := summary
    diagnostics := p.diagnostics
    outputTruncated := p.outputTruncated }

end ErrorCheckerParser

def parseErrorCheckerLog (text : Text) : CheckerParseResult :=
  (ErrorCheckerParser.consumeAll u { tool := tool } ((splitLines text).map sanitizerBody)).finish

/-! ### Any tool -/

def RacecheckAccess.site (access : RacecheckAccess) : CheckerSite where
  symbol := access.function
  offset := some access.offset
  file := some access.file
  line := some access.line

def RacecheckFinding.issue (finding : RacecheckFinding) : CheckerIssue where
  message := match finding.accessKinds with
    | kind :: _ => "Race reported between ".toList ++ kind ++ " access".toList
    | [] => "Race reported".toList
  sites := finding.accesses.map RacecheckAccess.site
  severity := finding.severity
  hazards := finding.maxHazards
  rawBlock := finding.rawBlock

def RacecheckInvalidAccess.issue (invalid : RacecheckInvalidAccess) : CheckerIssue where
  message := invalid.message
  sites := (invalid.access.map fun access =>
    { access.site with
      file := if access.file.isEmpty then none else some access.file
      line := if access.line = 0 then none else some access.line }).toList
  rawBlock := invalid.rawBlock

def racecheckAsCheckerResult (text : Text) : CheckerParseResult :=
  let parsed := parseRacecheckLog u text
  { tool := .racecheck
    issues := parsed.findings.map RacecheckFinding.issue ++
      parsed.invalidAccesses.map RacecheckInvalidAccess.issue
    summary := parsed.summary.map fun summary =>
      { errors := summary.errors, warnings := summary.warnings,
        totalHazards := summary.totalHazards, raw := summary.raw }
    diagnostics := parsed.diagnostics
    outputTruncated := parsed.outputTruncated }

def parseCheckerLog (text : Text) : CheckerParseResult :=
  if tool = .racecheck then racecheckAsCheckerResult u text else parseErrorCheckerLog u tool text

end Parser

/-! ### Complete logs -/

theorem diagnose_ne_nil (diagnostics : List RacecheckParseDiagnostic) (issue : RacecheckParseDiagnostic) :
    diagnose diagnostics issue ≠ [] := by
  unfold diagnose
  split_ifs with hmem
  · exact List.ne_nil_of_mem hmem
  · simp

theorem eq_nil_of_foldl_diagnose {issues diagnostics : List RacecheckParseDiagnostic}
    (h : issues.foldl diagnose diagnostics = []) : issues = [] := by
  induction issues generalizing diagnostics with
  | nil => rfl
  | cons issue issues ih =>
    obtain rfl := ih h
    exact absurd h (diagnose_ne_nil diagnostics issue)

section Complete

variable {u : CharTable}

theorem RacecheckParser.foldl_diagnose (p : RacecheckParser u) (issues : List RacecheckParseDiagnostic) :
    issues.foldl RacecheckParser.diagnose p =
      { p with diagnostics := issues.foldl ComputeSanitizer.diagnose p.diagnostics } := by
  induction issues generalizing p with
  | nil => rfl
  | cons issue issues ih => exact ih (p.diagnose issue)

/-- A summary of nothing agrees with no report only. -/
theorem summaryConsistencyDiagnostics_zero {summary : RacecheckSummary}
    {findings : List RacecheckFinding} {invalidAccesses : List RacecheckInvalidAccess}
    (h : summaryConsistencyDiagnostics summary findings invalidAccesses = [])
    (htotal : summary.totalHazards = 0) (herrors : summary.errors = 0) (hwarnings : summary.warnings = 0) :
    findings = [] ∧ invalidAccesses = [] := by
  unfold summaryConsistencyDiagnostics at h
  cases findings <;> cases invalidAccesses <;> simp_all

theorem RacecheckParser.finish_zero {p : RacecheckParser u} {summary : RacecheckSummary}
    (hdiagnostics : p.finish.diagnostics = []) (hsummary : p.finish.summary = some summary)
    (htotal : summary.totalHazards = 0) (herrors : summary.errors = 0) (hwarnings : summary.warnings = 0) :
    p.finish.findings = [] ∧ p.finish.invalidAccesses = [] := by
  unfold RacecheckParser.finish at hdiagnostics hsummary ⊢
  cases hp : p.flush.diagnoseMarkers.summary with
  | none => simp [hp] at hsummary
  | some found =>
    simp only [hp, RacecheckParser.foldl_diagnose] at hdiagnostics hsummary ⊢
    cases hsummary
    exact summaryConsistencyDiagnostics_zero (eq_nil_of_foldl_diagnose hdiagnostics) htotal herrors
      hwarnings

theorem CheckerSummary.isZero_iff {s : CheckerSummary} :
    s.isZero = true ↔ s.errors = 0 ∧ s.warnings = 0 ∧ s.totalHazards = 0 := by
  simp [CheckerSummary.isZero, CheckerSummary.isPositive, and_assoc]

/-- A complete log whose summary is of nothing reports nothing. -/
def CheckerParseResult.Quiet (r : CheckerParseResult) : Prop :=
  r.isComplete = true → r.summary.any CheckerSummary.isZero = true → r.issues = []

theorem racecheckAsCheckerResult_quiet (text : Text) : (racecheckAsCheckerResult u text).Quiet := by
  intro hcomplete hzero
  have hdiagnostics : (parseRacecheckLog u text).diagnostics = [] := by
    simpa [racecheckAsCheckerResult] using (Bool.and_eq_true_iff.mp hcomplete).2
  cases hsummary : (parseRacecheckLog u text).summary with
  | none => simp [racecheckAsCheckerResult, hsummary] at hzero
  | some summary =>
    simp only [racecheckAsCheckerResult, hsummary, Option.map_some, Option.any_some,
      CheckerSummary.isZero_iff] at hzero
    obtain ⟨hfindings, hinvalid⟩ := RacecheckParser.finish_zero hdiagnostics hsummary hzero.2.2 hzero.1 hzero.2.1
    have hfindings : (parseRacecheckLog u text).findings = [] := hfindings
    have hinvalid : (parseRacecheckLog u text).invalidAccesses = [] := hinvalid
    simp [racecheckAsCheckerResult, hfindings, hinvalid]

theorem ErrorCheckerParser.finish_quiet (p : ErrorCheckerParser) : p.finish.Quiet := by
  intro hcomplete hzero
  obtain ⟨-, hdiagnostics⟩ := Bool.and_eq_true_iff.mp hcomplete
  unfold ErrorCheckerParser.finish at hzero hdiagnostics ⊢
  cases hsummary : p.diagnoseMarkers.fullSummary with
  | none => simp [hsummary] at hzero
  | some summary =>
    simp only [hsummary, ErrorCheckerParser.diagnoseSummary] at hzero hdiagnostics ⊢
    have hzero : summary.isZero = true := hzero
    split_ifs at hdiagnostics ⊢ with hmismatch
    · exact absurd (List.isEmpty_iff.mp hdiagnostics) (diagnose_ne_nil _ _)
    · simp only [Bool.or_eq_true, hzero, Bool.true_and, not_or] at hmismatch
      simpa using hmismatch.2

theorem parseCheckerLog_quiet (tool : CheckerTool) (text : Text) : (parseCheckerLog u tool text).Quiet := by
  unfold parseCheckerLog
  split_ifs
  · exact racecheckAsCheckerResult_quiet text
  · exact ErrorCheckerParser.finish_quiet _

end Complete

end CuTracer.ComputeSanitizer
