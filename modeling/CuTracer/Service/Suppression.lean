import CuTracer.Service.Contracts

/-! Rules that mark findings as not this service's to report. A policy splits the
findings into those that stay actionable and those that a rule hides; a hidden finding
keeps the record of the rule that hid it. Whether a pattern is found in a kernel name
is left open. -/

namespace CuTracer.Service

/-! ### Dates -/

abbrev Date := ℕ × ℕ × ℕ

def Date.before (a b : Date) : Bool :=
  a.1 < b.1 || (a.1 = b.1 && (a.2.1 < b.2.1 || (a.2.1 = b.2.1 && a.2.2 < b.2.2)))

def isLeap (year : ℕ) : Bool := year % 4 = 0 && (year % 100 ≠ 0 || year % 400 = 0)

def daysInMonth (year month : ℕ) : ℕ :=
  if month = 2 then (if isLeap year then 29 else 28)
  else if month = 4 ∨ month = 6 ∨ month = 9 ∨ month = 11 then 30 else 31

def number (digits : List Char) : Option ℕ :=
  if digits.all fun c => '0' ≤ c && c ≤ '9' then
    some (digits.foldl (fun n c => 10 * n + (c.toNat - 48)) 0)
  else none

def parseYmdDate (value : String) : Option Date := do
  match value.toList with
  | [y₁, y₂, y₃, y₄, '-', m₁, m₂, '-', d₁, d₂] =>
    let year ← number [y₁, y₂, y₃, y₄]
    let month ← number [m₁, m₂]
    let day ← number [d₁, d₂]
    if 1 ≤ year ∧ 1 ≤ month ∧ month ≤ 12 ∧ 1 ≤ day ∧ day ≤ daysInMonth year month then
      some (year, month, day)
    else none
  | _ => none

/-- A text that denotes one exact day. -/
abbrev YmdDate := {value : String // (parseYmdDate value).isSome}

/-! ### Rules -/

/-- A rule; an empty narrowing field means "any". Its dates are dates. -/
structure SuppressionRule where
  ruleId : String
  version : ℤ
  reason : String
  owner : String
  kernelPattern : Option String := none
  tools : List String := []
  errorTypes : List String := []
  expiresOn : Option String := none
  trackingTicket : String := ""
  reviewedBy : String := ""
  reviewedOn : Option String := none
  reviewDueOn : Option String := none
  permanent : Bool := false
  expires_date : ∀ d ∈ expiresOn, (parseYmdDate d).isSome
  reviewed_date : ∀ d ∈ reviewedOn, (parseYmdDate d).isSome
  reviewDue_date : ∀ d ∈ reviewDueOn, (parseYmdDate d).isSome
  permanent_stays : permanent = true → expiresOn = none

structure SuppressionDecision where
  ruleId : String
  ruleVersion : ℤ
  reason : String
  owner : String
  expiresOn : Option String
  trackingTicket : String
  reviewedBy : String
  reviewedOn : Option String
  reviewDueOn : Option String
  permanent : Bool
  deriving DecidableEq

def SuppressionRule.decision (rule : SuppressionRule) : SuppressionDecision where
  ruleId := rule.ruleId
  ruleVersion := rule.version
  reason := rule.reason
  owner := rule.owner
  expiresOn := rule.expiresOn
  trackingTicket := rule.trackingTicket
  reviewedBy := rule.reviewedBy
  reviewedOn := rule.reviewedOn
  reviewDueOn := rule.reviewDueOn
  permanent := rule.permanent

def defaultSuppressionRules : List SuppressionRule :=
  [{ ruleId := "framework-kernel-site"
     version := 1
     reason := "Finding is attributed to a framework kernel (ATen/c10), not to the Triton " ++
       "kernel under test."
     owner := "triton_tools"
     kernelPattern := some "(?:^|[^A-Za-z0-9_])(?:at|c10)::"
     tools := ["compute_sanitizer/initcheck"]
     trackingTicket := "framework-initcheck-noise-20260720"
     reviewedBy := "triton_tools"
     reviewedOn := some "2026-09-05"
     reviewDueOn := some "2026-12-04"
     permanent := true
     expires_date := by simp
     reviewed_date := by
       intro d hd
       cases hd
       decide +kernel
     reviewDue_date := by
       intro d hd
       cases hd
       decide +kernel
     permanent_stays := fun _ => rfl }]

def ruleIsActive (rule : SuppressionRule) (today : Option Date) : Bool :=
  match rule.expiresOn with
  | none => true
  | some expiresOn =>
    match today, parseYmdDate expiresOn with
    | some today, some expires => today.before expires
    | _, _ => false

section

variable (search : String → String → Bool)

/-- `_matches`. -/
def ruleMatches (rule : SuppressionRule) (finding : FindingRecord) : Bool :=
  (rule.kernelPattern.isSome || !rule.tools.isEmpty || !rule.errorTypes.isEmpty) &&
    (rule.tools.isEmpty || rule.tools.contains finding.sourceTool) &&
    (rule.errorTypes.isEmpty || rule.errorTypes.contains finding.errorType) &&
    rule.kernelPattern.all fun pattern => finding.kernelName.any (search pattern)

/-! ### Policies -/

structure SuppressedFinding where
  finding : FindingRecord
  decision : SuppressionDecision
  deriving DecidableEq

structure SuppressionOutcome where
  kept : List FindingRecord := []
  suppressed : List SuppressedFinding := []

variable (rules : List SuppressionRule)

def firing (today : Option Date) (finding : FindingRecord) : Option SuppressionRule :=
  rules.find? fun rule => ruleIsActive rule today && ruleMatches search rule finding

/-- `SuppressionPolicy.apply`, on a date that was checked before. -/
def applyRules (findings : List FindingRecord) (today : Option Date) : SuppressionOutcome :=
  findings.foldl (fun outcome finding =>
    match firing search rules today finding with
    | none => { outcome with kept := outcome.kept ++ [finding] }
    | some rule =>
      { outcome with suppressed := outcome.suppressed ++ [⟨finding, rule.decision⟩] }) {}

theorem applyRules_foldl (rules : List SuppressionRule) (findings : List FindingRecord)
    (today : Option Date) (outcome : SuppressionOutcome) :
    findings.foldl (fun outcome finding =>
      match firing search rules today finding with
      | none => { outcome with kept := outcome.kept ++ [finding] }
      | some rule =>
        { outcome with suppressed := outcome.suppressed ++ [⟨finding, rule.decision⟩] }) outcome =
      ⟨outcome.kept ++ findings.filter fun f => (firing search rules today f).isNone,
        outcome.suppressed ++ findings.filterMap fun f =>
          (firing search rules today f).map fun rule => ⟨f, rule.decision⟩⟩ := by
  induction findings generalizing outcome with
  | nil => simp
  | cons f fs ih =>
    rw [List.foldl_cons, ih]
    cases hf : firing search rules today f with
    | none => simp [hf]
    | some rule => simp [hf]

theorem kept_applyRules (findings : List FindingRecord) (today : Option Date) :
    (applyRules search rules findings today).kept =
      findings.filter fun f => (firing search rules today f).isNone := by
  rw [applyRules, applyRules_foldl]
  exact List.nil_append _

theorem suppressed_applyRules (findings : List FindingRecord) (today : Option Date) :
    (applyRules search rules findings today).suppressed =
      findings.filterMap fun f => (firing search rules today f).map fun rule => ⟨f, rule.decision⟩ := by
  rw [applyRules, applyRules_foldl]
  exact List.nil_append _

/-- What is not kept was hidden by an active rule, and the record of it is there. -/
theorem suppressed_of_not_kept {rules : List SuppressionRule} {findings : List FindingRecord}
    {today : Option Date} {f : FindingRecord} (hf : f ∈ findings)
    (hkept : f ∉ (applyRules search rules findings today).kept) :
    ∃ rule ∈ rules, ruleIsActive rule today = true ∧ ruleMatches search rule f = true ∧
      ⟨f, rule.decision⟩ ∈ (applyRules search rules findings today).suppressed := by
  rw [kept_applyRules, List.mem_filter, not_and] at hkept
  have hsome := hkept hf
  cases hfire : firing search rules today f with
  | none => exact absurd (by rw [hfire]; rfl) hsome
  | some rule =>
    have hrule := List.find?_some hfire
    rw [Bool.and_eq_true] at hrule
    refine ⟨rule, List.mem_of_find?_eq_some hfire, hrule.1, hrule.2, ?_⟩
    rw [suppressed_applyRules, List.mem_filterMap]
    exact ⟨f, hf, by rw [hfire]; rfl⟩

end

end CuTracer.Service
