import CuTracer.Service.PromptOmissions

/-! The session of a reasoner prompt. It is written at one level of detail after another until one fits
the budget of bytes, and the omissions of a level count all that its lists, mappings and strings lack. -/

namespace CuTracer.Service.Prompt

/-! ### The documents of a session -/

/-- A document whose dictionaries are in the order of their keys. -/
structure Document where
  json : Json
  sorted : json.Sorted

structure Mapping where
  entries : List (String × Json)
  sorted : Json.Sorted (.obj entries)

namespace Mapping

def json (m : Mapping) : Json := .obj m.entries

/-- `mapping[key] = value`. -/
def set (m : Mapping) (key : String) (value : Document) : Mapping where
  entries := Json.setField key value.json m.entries
  sorted := by
    obtain ⟨hkeys, hfields⟩ := Json.sorted_obj.mp m.sorted
    have hincreasing : IncreasingBy Prod.fst m.entries := List.pairwise_map.mp hkeys
    refine Json.sorted_obj.mpr ⟨List.pairwise_map.mpr (Json.setField_increasing hincreasing), ?_⟩
    intro f hf
    obtain rfl | hmem := Json.mem_setField hf
    · exact value.sorted
    · exact hfields f hmem

/-- `mapping.pop(key, None)`. -/
def pop (m : Mapping) (key : String) : Mapping where
  entries := m.entries.filter fun f => f.1 ≠ key
  sorted := by
    obtain ⟨hkeys, hfields⟩ := Json.sorted_obj.mp m.sorted
    refine Json.sorted_obj.mpr ⟨hkeys.sublist (List.filter_sublist.map _), ?_⟩
    exact fun f hf => hfields f (List.mem_of_mem_filter hf)

/-- `mapping.get(key)`. -/
def get? (m : Mapping) (key : String) : Option Document :=
  (Json.field m.entries key).pmap Document.mk fun v hv =>
    (Json.sorted_obj.mp m.sorted).2 (key, v) (Dict.mem_of_lookup hv)

end Mapping

def Document.ofMappings (ms : List Mapping) : Document where
  json := .arr (ms.map Mapping.json)
  sorted := by
    refine Json.sorted_arr.mpr ?_
    intro v hv
    obtain ⟨m, -, rfl⟩ := List.mem_map.mp hv
    exact m.sorted

def Document.int (i : ℤ) : Document := ⟨.int i, rfl⟩

def Document.str (s : String) : Document := ⟨.str s, rfl⟩

def Document.null : Document := ⟨.null, rfl⟩

/-- `EssentialDelayPoint`, by its `pc_offset` and its `to_dict`. -/
structure EssentialPoint where
  pcOffset : String
  fields : Mapping

/-- What `to_dict` gives of a result, with the points of a reduction. -/
inductive Evidence where
  | result (fields : Mapping)
  | reduction (fields : Mapping) (essentialPoints : List EssentialPoint)

/-- `AnalysisSession`, by what `to_dict` gives of its parts. -/
structure PromptSession where
  schemaVersion : ℤ
  sessionId : String
  unit : Document
  unitId : String
  status : String
  sanitizer : List Evidence
  stress : List Evidence
  traces : List Evidence
  reductions : List Evidence
  budget : Document
  pendingExperiments : List Mapping
  completedExperimentIds : List String
  experimentFingerprints : List String
  roundIndex : ℤ
  submittedExperiments : ℤ
  turns : List Document
  report : Option Document
  terminationReason : String
  stateRevision : ℤ

/-! ### Essential points -/

def pcOffsetValue (raw : String) : Option ℕ :=
  let isHex := "0x".toList.isPrefixOf raw.toList || "0X".toList.isPrefixOf raw.toList
  let digits := if isHex then (raw.toList.drop 2).map Char.toLower else raw.toList
  if digits = [] ∨ !digits.all (if isHex then isHexDigit else Char.isDigit) then none
  else
    let significant := digits.dropWhile (· = '0')
    let base := if isHex then 16 else 10
    let value := significant.foldl (fun n c => base * n + hexDigit c) 0
    if significant.length > (if isHex then 16 else 20) ∨ value > 0xffffffffffffffff then none else some value

example : pcOffsetValue "0x00A0" = some 160 ∧ pcOffsetValue "12" = some 12 ∧ pcOffsetValue "1a" = none := by decide

def EssentialPoint.projected (point : EssentialPoint) : Mapping :=
  let value := pcOffsetValue point.pcOffset
  (point.fields.set "pc_offset_value" ((value.map fun v => .int v).getD .null)).set "pc_offset_hex"
    ((value.map fun v => .str ("0x" ++ String.ofList (Nat.toDigits 16 v))).getD .null)

def essentialPointProjection (point : EssentialPoint) : Projecting Mapping := do
  if pcOffsetValue point.pcOffset = none then
    addOmission ("session.evidence.reductions[].essential_points[].pc_offset_hex", .invalidOrOutOfRangePcOffset) (1, 0)
  return point.projected

def evidenceProjectionValues : Evidence → Projecting Mapping
  | .result fields => pure fields
  | .reduction fields points => do
    return fields.set "essential_points" (.ofMappings (← points.mapM essentialPointProjection))

/-! ### The parts of a session -/

/-- Whether a pending experiment is about the unit of the session. -/
def sameUnit (session : PromptSession) (spec : Mapping) : Bool :=
  (spec.get? "unit").any fun unit => unit.json ≠ .null ∧ unit.json = session.unit.json

/-- The fields of a pending experiment, where the unit of the session is only referred to. -/
def pendingFields (session : PromptSession) (spec : Mapping) : Mapping :=
  if sameUnit session spec then (spec.pop "unit").set "unit_ref" (.str session.unitId)
  else
    match spec.get? "unit" with
    | some unit => if unit.json = .null then spec.pop "unit" else (spec.pop "unit").set "unit" unit
    | none => spec

section Projection

variable (limits : DetailLimits)

/-- Every field of a dictionary, shortened. -/
def sampleMapping (sec : String) (m : Mapping) : Projecting Json := do
  return .obj (← sampleFields limits sec m.entries.length m.entries)

def pendingProjection (session : PromptSession) (spec : Mapping) : Projecting Json := do
  if sameUnit session spec then
    addOmission ("session.pending_experiments[].unit", .deduplicatedAsSessionUnit) (1, 0)
  sampleMapping limits "session.pending_experiments[]" (pendingFields session spec)

/-- The `results` of a `name` in `_latest_evidence_projection`. -/
def latestEvidence (name : String) (results : List Evidence) : Projecting Json := do
  if results.length > 1 then
    addOmission ("session.evidence." ++ name, .olderEvidence) (results.length - 1, 0)
  match results.getLast? with
  | some result => return .arr [← sampleMapping limits ("session.evidence." ++ name ++ "[]")
      (← evidenceProjectionValues result)]
  | none => return .arr []

def latestEvidenceProjection (session : PromptSession) : Projecting Json := do
  return .obj [("sanitizer", ← latestEvidence limits "sanitizer" session.sanitizer),
    ("stress", ← latestEvidence limits "stress" session.stress),
    ("traces", ← latestEvidence limits "traces" session.traces),
    ("reductions", ← latestEvidence limits "reductions" session.reductions)]

def latestTurnProjection (session : PromptSession) : Projecting Json := do
  if session.turns.length > 1 then
    addOmission ("session.turns", .olderDecisionHistory) (session.turns.length - 1, 0)
  match session.turns.getLast? with
  | some turn => return .arr [← sampleValue limits "session.turns[]" turn.json]
  | none => return .arr []

def pendingExperimentsProjection (session : PromptSession) : Projecting Json := do
  if session.pendingExperiments.length > limits.maxListItems then
    addOmission ("session.pending_experiments", .listSampled)
      (session.pendingExperiments.length - limits.maxListItems, 0)
  return .arr (← (session.pendingExperiments.take limits.maxListItems).mapM (pendingProjection limits session))

/-- What `_session_projection` notes first. -/
def countedProjection (session : PromptSession) : Projecting Unit := do
  if session.completedExperimentIds ≠ [] then
    addOmission ("session.completed_experiment_ids", .representedByCountAndEvidence)
      (session.completedExperimentIds.length, 0)
  if session.experimentFingerprints ≠ [] then
    addOmission ("session.experiment_fingerprints", .representedByCount) (session.experimentFingerprints.length, 0)
  return ()

/-- The `report` of `_session_projection`. -/
def reportProjection (session : PromptSession) : Projecting Json :=
  match session.report with
  | some report => sampleValue limits "session.report" report.json
  | none => pure .null

def sessionProjection (session : PromptSession) : Projecting Json := do
  countedProjection session
  return .obj [("schema_version", .int session.schemaVersion), ("session_id", .str session.sessionId),
    ("unit", session.unit.json), ("status", .str session.status),
    ("evidence", ← latestEvidenceProjection limits session), ("budget", session.budget.json),
    ("pending_experiments", ← pendingExperimentsProjection limits session),
    ("completed_experiment_count", .int session.completedExperimentIds.length),
    ("experiment_fingerprint_count", .int session.experimentFingerprints.length),
    ("round_index", .int session.roundIndex), ("submitted_experiments", .int session.submittedExperiments),
    ("turns", ← latestTurnProjection limits session),
    ("report", ← reportProjection limits session),
    ("termination_reason", ← sampleValue limits "session.termination_reason" (.str session.terminationReason)),
    ("state_revision", .int session.stateRevision)]

end Projection

/-! ### The session in all detail -/

def Evidence.projected : Evidence → Mapping
  | .result fields => fields
  | .reduction fields points =>
    fields.set "essential_points" (.ofMappings (points.map EssentialPoint.projected))

def wholeEvidence (results : List Evidence) : Json :=
  .arr (results.getLast?.map fun result => result.projected.json).toList

/-- The session, with the latest of its evidence and of its turns, before anything is shortened. -/
def wholeSession (session : PromptSession) : Json :=
  .obj [("schema_version", .int session.schemaVersion), ("session_id", .str session.sessionId),
    ("unit", session.unit.json), ("status", .str session.status),
    ("evidence", .obj [("sanitizer", wholeEvidence session.sanitizer), ("stress", wholeEvidence session.stress),
      ("traces", wholeEvidence session.traces), ("reductions", wholeEvidence session.reductions)]),
    ("budget", session.budget.json),
    ("pending_experiments", .arr (session.pendingExperiments.map fun spec => (pendingFields session spec).json)),
    ("completed_experiment_count", .int session.completedExperimentIds.length),
    ("experiment_fingerprint_count", .int session.experimentFingerprints.length),
    ("round_index", .int session.roundIndex), ("submitted_experiments", .int session.submittedExperiments),
    ("turns", .arr (session.turns.getLast?.map Document.json).toList),
    ("report", (session.report.map Document.json).getD .null),
    ("termination_reason", .str session.terminationReason), ("state_revision", .int session.stateRevision)]

section Shortened

variable (limits : DetailLimits) (session : PromptSession)

theorem shortened_sampleMapping (sec : String) (m : Mapping) :
    Gives (sampleMapping limits sec m) fun w => Shortened w m.json :=
  fun log => .obj (shortened_sampleFields limits sec _ (fun f _ => shortened_sampleValue limits f.2) log)

theorem essentialPoints_projected (points : List EssentialPoint) :
    Gives (points.mapM essentialPointProjection) fun ms => ms = points.map EssentialPoint.projected := by
  induction points with
  | nil => exact fun _ => rfl
  | cons point points ih =>
    have hpoint : Gives (essentialPointProjection point) fun m => m = point.projected := by
      intro log
      unfold essentialPointProjection
      split_ifs <;> rfl
    intro log
    rw [List.mapM_cons, run_bind, run_bind, run_pure, List.map_cons, hpoint, ih]

theorem evidence_projected (result : Evidence) :
    Gives (evidenceProjectionValues result) fun m => m = result.projected := by
  cases result with
  | result fields => exact fun _ => rfl
  | reduction fields points =>
    intro log
    rw [evidenceProjectionValues, run_bind, run_pure, essentialPoints_projected]
    rfl

theorem shortened_latestEvidence (name : String) (results : List Evidence) :
    Gives (latestEvidence limits name results) fun w => Shortened w (wholeEvidence results) := by
  intro log
  unfold latestEvidence wholeEvidence
  cases results.getLast? with
  | none => split_ifs <;> exact .same _
  | some result =>
    have hlatest : Gives (do return .arr [← sampleMapping limits ("session.evidence." ++ name ++ "[]")
        (← evidenceProjectionValues result)]) fun w => Shortened w (.arr [result.projected.json]) := by
      intro log
      rw [run_bind, run_bind, run_pure, evidence_projected]
      exact .arr (.cons (shortened_sampleMapping limits _ _ _) (.nil _))
    split_ifs <;> exact hlatest _

theorem shortened_latestTurnProjection : Gives (latestTurnProjection limits session) fun w =>
    Shortened w (.arr (session.turns.getLast?.map Document.json).toList) := by
  intro log
  unfold latestTurnProjection
  cases session.turns.getLast? with
  | none => split_ifs <;> exact .same _
  | some turn => split_ifs <;> exact .arr (.cons (shortened_sampleValue limits _ _ _) (.nil _))

theorem shortened_pendingExperiments (specs : List Mapping) (n : ℕ) :
    Gives ((specs.take n).mapM (pendingProjection limits session)) fun ws =>
      ShortenedItems ws (specs.map fun spec => (pendingFields session spec).json) := by
  induction specs generalizing n with
  | nil =>
    rw [List.take_nil]
    exact fun _ => .nil _
  | cons spec specs ih =>
    cases n with
    | zero => exact fun _ => .nil _
    | succ n =>
      have hspec : Gives (pendingProjection limits session spec) fun w =>
          Shortened w (pendingFields session spec).json := by
        intro log
        unfold pendingProjection
        split_ifs <;> exact shortened_sampleMapping limits _ _ _
      intro log
      rw [List.take_succ_cons, List.mapM_cons]
      exact .cons (hspec log) (ih n _)

theorem shortened_pendingExperimentsProjection : Gives (pendingExperimentsProjection limits session) fun w =>
    Shortened w (.arr (session.pendingExperiments.map fun spec => (pendingFields session spec).json)) := by
  intro log
  unfold pendingExperimentsProjection
  split_ifs <;> exact .arr (shortened_pendingExperiments limits session _ _ _)

theorem shortened_reportProjection : Gives (reportProjection limits session) fun w =>
    Shortened w ((session.report.map Document.json).getD .null) := by
  intro log
  unfold reportProjection
  cases session.report with
  | none => exact .same _
  | some report => exact shortened_sampleValue limits _ _ _

theorem shortened_sessionProjection :
    Gives (sessionProjection limits session) fun w => Shortened w (wholeSession session) := by
  intro log
  have hevidence : Gives (latestEvidenceProjection limits session) fun w =>
      Shortened w (.obj [("sanitizer", wholeEvidence session.sanitizer), ("stress", wholeEvidence session.stress),
        ("traces", wholeEvidence session.traces), ("reductions", wholeEvidence session.reductions)]) := by
    intro log
    have h (name : String) (results : List Evidence) := shortened_latestEvidence limits name results
    exact .obj (.cons (h _ _ _) (.cons (h _ _ _) (.cons (h _ _ _) (.cons (h _ _ _) (.nil _)))))
  simp only [sessionProjection, run_bind, run_pure]
  refine .obj (.cons (.same _) (.cons (.same _) (.cons (.same _) (.cons (.same _) (.cons (hevidence _)
    (.cons (.same _) (.cons (shortened_pendingExperimentsProjection limits session _) (.cons (.same _)
    (.cons (.same _) (.cons (.same _) (.cons (.same _) (.cons (shortened_latestTurnProjection limits session _)
    (.cons (shortened_reportProjection limits session _) (.cons (shortened_sampleValue limits _ _ _)
    (.cons (.same _) (.nil _))))))))))))))))

end Shortened

section Accounts

variable {k : OmissionKey} {limits : DetailLimits}

/-- What is noted for another reason does not count. -/
theorem Accounts.ignore {α : Type} {m : Projecting α} {left : α → Omitted} {key : OmissionKey} {omitted : Omitted}
    {c : Prop} [Decidable c] (h : Accounts k m left) (hk : k.2.sampled) (hkey : key.2.sampled = false) :
    Accounts k (do if c then addOmission key omitted
                   m) left := by
  split_ifs
  · apply h.after
    intro a
    have hne : key ≠ k := by
      rintro rfl
      rw [hk] at hkey
      cases hkey
    rw [if_neg hne, zero_add]
  · exact h

theorem accounts_sampleMapping (sec : String) (m : Mapping) :
    Accounts k (sampleMapping limits sec m) fun w => leftOut k sec w m.json := by
  have hsorted := (Json.sorted_obj.mp m.sorted).2
  have hfields : Accounts k (sampleFields limits sec m.entries.length m.entries) fun gs =>
      leftOutFields k sec gs m.entries := accounts_sampleFields limits sec m.entries.length
    (fun f hf sec => accounts_sampleValue (hsorted f hf) sec) fun f hf => m.sorted.field hf
  intro log
  rw [sampleMapping, run_bind, run_pure, hfields]
  dsimp only
  rw [Mapping.json, leftOut_obj (by rw [length_sampleFields, Nat.min_self])]

theorem accounts_pendingProjection (hk : k.2.sampled) (session : PromptSession) (spec : Mapping) :
    Accounts k (pendingProjection limits session spec) fun w =>
      leftOut k "session.pending_experiments[]" w (pendingFields session spec).json :=
  (accounts_sampleMapping _ _).ignore hk rfl

theorem accounts_essentialPoints (hk : k.2.sampled) (points : List EssentialPoint) :
    Accounts k (points.mapM essentialPointProjection) fun _ => 0 := by
  induction points with
  | nil => exact accounts_pure rfl
  | cons point points ih =>
    have hpoint : Accounts k (essentialPointProjection point) fun _ => 0 :=
      Accounts.ignore (m := pure point.projected) (accounts_pure rfl) hk rfl
    rw [List.mapM_cons]
    exact hpoint.both (g := List.cons) ih fun _ _ => (add_zero 0).symm

theorem accounts_evidenceProjectionValues (hk : k.2.sampled) (result : Evidence) :
    Accounts k (evidenceProjectionValues result) fun _ => 0 := by
  cases result with
  | result fields => exact accounts_pure rfl
  | reduction fields points => exact (accounts_essentialPoints hk points).map fun _ => rfl

theorem accounts_latestEvidence (hk : k.2.sampled) (name : String) (results : List Evidence) :
    Accounts k (latestEvidence limits name results) fun w =>
      leftOut k ("session.evidence." ++ name) w (wholeEvidence results) := by
  refine Accounts.ignore ?_ hk rfl
  unfold wholeEvidence
  cases results.getLast? with
  | none =>
    apply accounts_pure
    rw [Option.map_none, Option.toList_none, leftOut_nil]
  | some result =>
    intro log
    dsimp only
    rw [run_bind, run_bind, run_pure, accounts_sampleMapping, evidence_projected,
      accounts_evidenceProjectionValues hk, add_zero]
    dsimp only
    rw [Option.map_some, Option.toList_some, leftOut_singleton]

theorem accounts_latestTurnProjection (hk : k.2.sampled) (session : PromptSession) :
    Accounts k (latestTurnProjection limits session) fun w =>
      leftOut k "session.turns" w (.arr (session.turns.getLast?.map Document.json).toList) := by
  refine Accounts.ignore ?_ hk rfl
  cases session.turns.getLast? with
  | none =>
    apply accounts_pure
    rw [Option.map_none, Option.toList_none, leftOut_nil]
  | some turn =>
    refine (accounts_sampleValue turn.sorted "session.turns[]").map ?_
    intro w
    rw [Option.map_some, Option.toList_some, leftOut_singleton]
    rfl

theorem accounts_pendingExperiments (hk : k.2.sampled) (session : PromptSession) (specs : List Mapping) (n : ℕ) :
    Accounts k ((specs.take n).mapM (pendingProjection limits session)) fun ws =>
      leftOutItems k "session.pending_experiments[]" ws (specs.map fun spec => (pendingFields session spec).json) := by
  induction specs generalizing n with
  | nil =>
    rw [List.take_nil]
    exact accounts_pure (leftOutItems_nil _)
  | cons spec specs ih =>
    cases n with
    | zero => exact accounts_pure (leftOutItems_nil _)
    | succ n =>
      rw [List.take_succ_cons, List.mapM_cons]
      exact (accounts_pendingProjection hk session spec).both (g := List.cons) (ih n) fun _ _ => leftOutItems_cons ..

theorem length_mapM {α β : Type} (f : α → Projecting β) (as : List α) (log : OmissionLog) :
    ((as.mapM f).run log).1.length = as.length := by
  induction as generalizing log with
  | nil => rfl
  | cons a as ih =>
    rw [List.mapM_cons, run_bind, run_bind, run_pure, List.length_cons, ih, List.length_cons]

theorem accounts_pendingExperimentsProjection (hk : k.2.sampled) (session : PromptSession) :
    Accounts k (pendingExperimentsProjection limits session) fun w =>
      leftOut k "session.pending_experiments" w
        (.arr (session.pendingExperiments.map fun spec => (pendingFields session spec).json)) := by
  refine (accounts_pendingExperiments hk session session.pendingExperiments limits.maxListItems).cut ?_ ?_
  · intro log
    rw [length_mapM, List.length_take]
  · intro ws
    rw [leftOut, List.length_map]
    rfl

theorem accounts_latestEvidenceProjection (hk : k.2.sampled) (session : PromptSession) :
    Accounts k (latestEvidenceProjection limits session) fun w =>
      leftOut k "session.evidence" w (.obj [("sanitizer", wholeEvidence session.sanitizer),
        ("stress", wholeEvidence session.stress), ("traces", wholeEvidence session.traces),
        ("reductions", wholeEvidence session.reductions)]) := by
  intro log
  simp only [latestEvidenceProjection, run_bind, run_pure]
  rw [accounts_latestEvidence hk, accounts_latestEvidence hk, accounts_latestEvidence hk,
    accounts_latestEvidence hk, leftOut_obj (by rfl)]
  simp [leftOutFields, Json.field, Dict.lookup, add_assoc]

theorem accounts_countedProjection (hk : k.2.sampled) (session : PromptSession) :
    Accounts k (countedProjection session) fun _ => 0 :=
  Accounts.ignore (Accounts.ignore (m := pure ()) (accounts_pure rfl) hk rfl) hk rfl

theorem accounts_reportProjection (session : PromptSession) :
    Accounts k (reportProjection limits session) fun w =>
      leftOut k "session.report" w ((session.report.map Document.json).getD .null) := by
  unfold reportProjection
  cases session.report with
  | none => exact accounts_pure rfl
  | some report => exact accounts_sampleValue report.sorted _

theorem accounts_sessionProjection (hk : k.2.sampled) (session : PromptSession) :
    Accounts k (sessionProjection limits session) fun w => leftOut k "session" w (wholeSession session) := by
  have hreason : Accounts k (sampleValue limits "session.termination_reason" (.str session.terminationReason)) fun w =>
      leftOut k "session.termination_reason" w (.str session.terminationReason) :=
    accounts_sampleValue (Document.str session.terminationReason).sorted _
  -- what stays as it is
  have hint (i : ℤ) (sec : String) : leftOut k sec (.int i) (.int i) = 0 := leftOut_self (Document.int i).sorted sec
  have hstr (s sec : String) : leftOut k sec (.str s) (.str s) = 0 := leftOut_self (Document.str s).sorted sec
  have hdoc (d : Document) (sec : String) : leftOut k sec d.json d.json = 0 := leftOut_self d.sorted sec
  intro log
  simp only [sessionProjection, run_bind, run_pure]
  rw [hreason, accounts_reportProjection, accounts_latestTurnProjection hk, accounts_pendingExperimentsProjection hk,
    accounts_latestEvidenceProjection hk, accounts_countedProjection hk, wholeSession, leftOut_obj (by rfl)]
  simp [leftOutFields, Json.field, Dict.lookup, add_assoc, hint, hstr, hdoc]

end Accounts

/-! ### The candidates -/

structure SessionCandidate where
  maxBytes : ℤ
  detailLevel : ℕ
  session : Json
  correlatedTriage : Json
  omissions : OmissionLog

def SessionCandidate.toJson (c : SessionCandidate) : Json :=
  .obj [("projection_schema_version", .int 1), ("budget_bytes", .int c.maxBytes), ("detail_level", .int c.detailLevel),
    ("session", c.session), ("correlated_triage", c.correlatedTriage), ("omissions", .arr c.omissions.toList)]

def sessionCandidate (session : PromptSession) (correlatedTriage : Document) (maxBytes : ℤ) (detailLevel : ℕ)
    (limits : DetailLimits) : SessionCandidate :=
  let projectedSession := (sessionProjection limits session).run Dict.empty
  let projectedTriage := (sampleValue limits "correlated_triage" correlatedTriage.json).run projectedSession.2
  ⟨maxBytes, detailLevel, projectedSession.1, projectedTriage.1, projectedTriage.2⟩

def detailLimits : List DetailLimits := [⟨32, 4096⟩, ⟨16, 2048⟩, ⟨8, 1024⟩, ⟨4, 512⟩, ⟨1, 128⟩, ⟨0, 128⟩]

section Context

variable (repr : BitVec 64 → List Char) (session : PromptSession) (correlatedTriage : Document) (maxBytes : ℤ)

/-- The loop over the levels of detail, from one on. -/
def projectSessionFrom : ℕ → List DetailLimits → Option ℕ → Except ProjectionError String
  | _, [], smallestSize => .error (.cannotPreserve "session" "required context" maxBytes (smallestSize.getD 0))
  | detailLevel, limits :: rest, smallestSize =>
    let serialized := jsonText repr (sessionCandidate session correlatedTriage maxBytes detailLevel limits).toJson
    let size := Utf8.size serialized
    if size ≤ maxBytes then .ok (String.ofList serialized)
    else projectSessionFrom (detailLevel + 1) rest (some (smallestSize.elim size fun smallest => min smallest size))

def projectSessionContext : Except ProjectionError String :=
  if maxBytes ≤ 0 then .error (.notPositive "session")
  else projectSessionFrom repr session correlatedTriage maxBytes 0 detailLimits none

/-- A text that is returned is that of a level that fits. -/
theorem projectSessionFrom_ok {detailLevel : ℕ} {rest : List DetailLimits} {smallestSize : Option ℕ} {text : String}
    (h : projectSessionFrom repr session correlatedTriage maxBytes detailLevel rest smallestSize = .ok text) :
    ∃ level, ∃ limits ∈ rest, text = String.ofList (jsonText repr
        (sessionCandidate session correlatedTriage maxBytes level limits).toJson) ∧
      (text.utf8ByteSize : ℤ) ≤ maxBytes := by
  induction rest generalizing detailLevel smallestSize with
  | nil => cases h
  | cons limits rest ih =>
    rw [projectSessionFrom] at h
    split_ifs at h with hfits
    · cases h
      exact ⟨detailLevel, limits, List.mem_cons_self, rfl, by rwa [Utf8.utf8ByteSize_ofList]⟩
    · obtain ⟨level, limits, hmem, htext⟩ := ih h
      exact ⟨level, limits, List.mem_cons_of_mem _ hmem, htext⟩

/-- What is counted for a section and a reason is what the candidate lacks. -/
theorem amount_sessionCandidate {k : OmissionKey} (hk : k.2.sampled) (detailLevel : ℕ) (limits : DetailLimits) :
    (sessionCandidate session correlatedTriage maxBytes detailLevel limits).omissions.amount k =
      leftOut k "session" (sessionCandidate session correlatedTriage maxBytes detailLevel limits).session
          (wholeSession session) +
        leftOut k "correlated_triage"
          (sessionCandidate session correlatedTriage maxBytes detailLevel limits).correlatedTriage
          correlatedTriage.json := by
  unfold sessionCandidate
  rw [accounts_sampleValue correlatedTriage.sorted, accounts_sessionProjection hk, amount_empty, zero_add]

end Context

/-- The contexts of a prompt are within their budgets. A context of artifacts is refused only where not even
its omissions fit or where a reference holds a lone surrogate, and what it has of a local file without a mark is
the whole file. A context of a session is a shortened one, and has an omission for each section of which lists,
mappings or strings were shortened, with the number of items, fields or bytes that the section lacks. -/
theorem prompt_contexts_within_budget (repr : BitVec 64 → List Char) :
    (∀ (refs : List StrRef) (loader : ArtifactLoader) (maxBytes : ℤ), 0 < maxBytes →
      (maxBytes < (omissionRecord refs maxBytes).size repr ∧
        projectArtifactContext repr refs loader maxBytes = .error (.cannotPreserve "artifact" "omission metadata"
          maxBytes ((omissionRecord refs maxBytes).size repr))) ∨
      ((∃ ref ∈ refs, ref.encodable = none) ∧
        projectArtifactContext repr refs loader maxBytes = .error .unicodeEncode) ∨
      ∃ text, projectArtifactContext repr refs loader maxBytes = .ok text ∧ (text.utf8ByteSize : ℤ) ≤ maxBytes) ∧
    (∀ (refs : List StrRef) (contents : ArtifactRef → Except String (List UInt8)) (maxBytes : ℤ) (text : String),
      projectArtifactContext repr refs (localArtifactLoader contents) maxBytes = .ok text →
      ∃ d : ArtifactDocument, text = String.ofList (jsonText repr d.toJson) ∧
        ∀ e ∈ d.entries, e.status = .included → e.truncated = false →
          ∃ bytes, contents e.ref = .ok bytes ∧ e.content = Utf8.decodeReplace bytes) ∧
    ∀ (session : PromptSession) (correlatedTriage : Document) (maxBytes : ℤ) (text : String),
      projectSessionContext repr session correlatedTriage maxBytes = .ok text →
      (text.utf8ByteSize : ℤ) ≤ maxBytes ∧
      ∃ detailLevel, ∃ limits ∈ detailLimits,
        let c := sessionCandidate session correlatedTriage maxBytes detailLevel limits
        text = String.ofList (jsonText repr c.toJson) ∧ Shortened c.session (wholeSession session) ∧
        Shortened c.correlatedTriage correlatedTriage.json ∧ ∀ key : OmissionKey, key.2.sampled →
          let lacking := leftOut key "session" c.session (wholeSession session) +
            leftOut key "correlated_triage" c.correlatedTriage correlatedTriage.json
          lacking ≠ 0 → omissionJson key lacking ∈ c.omissions.toList := by
  refine ⟨?_, ?_, ?_⟩
  · intro refs loader maxBytes hmax
    unfold projectArtifactContext
    obtain ⟨hlarge, herror⟩ | ⟨hbad, herror⟩ | ⟨kept, d, hok, hprojected⟩ :=
      projectArtifacts_spec repr loader refs hmax
    · rw [herror]
      exact .inl ⟨hlarge, rfl⟩
    · rw [herror]
      exact .inr (.inl ⟨hbad, rfl⟩)
    · rw [hok]
      refine .inr (.inr ⟨_, rfl, ?_⟩)
      rw [Utf8.utf8ByteSize_ofList]
      exact hprojected.size_le
  · intro refs contents maxBytes text htext
    unfold projectArtifactContext at htext
    by_cases hmax : maxBytes ≤ 0
    · rw [projectArtifacts, if_pos hmax] at htext
      cases htext
    · obtain ⟨-, herror⟩ | ⟨-, herror⟩ | ⟨kept, d, hok, hprojected⟩ := projectArtifacts_spec repr
        (localArtifactLoader contents) refs (not_le.mp hmax)
      · rw [herror] at htext
        cases htext
      · rw [herror] at htext
        cases htext
      · rw [hok] at htext
        exact ⟨d, (Except.ok.inj htext).symm, fun e he => (hprojected.whole e he).local⟩
  · intro session correlatedTriage maxBytes text htext
    unfold projectSessionContext at htext
    split_ifs at htext
    obtain ⟨level, limits, hmem, hcandidate, hsize⟩ :=
      projectSessionFrom_ok repr session correlatedTriage maxBytes htext
    refine ⟨hsize, level, limits, hmem, hcandidate, shortened_sessionProjection limits session _,
      shortened_sampleValue limits _ _ _, ?_⟩
    intro key hkey lacking hlacking
    have hamount := amount_sessionCandidate session correlatedTriage maxBytes hkey level limits
    change _ = lacking at hamount
    rw [← hamount] at hlacking ⊢
    exact mem_toList hlacking

/-- A reference to a local file, whose name ends in a byte that is no character. -/
def surrogateRef : StrRef where
  uri := "file:///runs/log%FF".toList.map .char
  relativePath := "runs/log".toList.map .char ++ [.surrogate 0x4ff]
  sha256 := none
  sizeBytes := none
  mediaType := "text/plain".toList.map .char

theorem surrogate_reference_raises :
    (omissionRecord [surrogateRef] 1000).size (fun _ => []) ≤ 1000 ∧
      projectArtifactContext (fun _ => []) [surrogateRef] (fun _ _ => .ok none) 1000 = .error .unicodeEncode := by
  have hsize : (omissionRecord [surrogateRef] 1000).size (fun _ => []) = 159 := by decide +kernel
  have hselect (ceiling : ℤ) : selectArtifactMetadata (fun _ => []) [surrogateRef] 1000 ceiling = none := by
    rw [selectArtifactMetadata, bisectM]
    rfl
  refine ⟨by rw [hsize]; decide, ?_⟩
  rw [projectArtifactContext, projectArtifacts, hsize, show deduplicateRefs [surrogateRef] = [surrogateRef] from rfl]
  simp only [hselect]
  rfl

/-- A context of a reference whose file is longer than its share, and a session whose latest turn has more items
than are kept. -/
theorem prompt_contexts_within_budget_cut :
    let refs : List StrRef := [⟨"file:///runs/log".toList.map .char, "log".toList.map .char, none, none,
      "text/plain".toList.map .char⟩]
    let turn : Document := ⟨.obj [("actions", .arr (List.replicate 33 (.int 7)))], by rfl⟩
    let session : PromptSession := ⟨7, "s", .null, "u", "running", [], [], [], [], .null, [], [], [], 0, 0, [turn], none,
      "", 1⟩
    (∃ text, projectArtifactContext (fun _ => []) refs (localArtifactLoader fun _ => .ok (List.replicate 500 97)) 400 =
      .ok text ∧ (text.utf8ByteSize : ℤ) ≤ 400) ∧
    ∃ text, projectSessionContext (fun _ => []) session .null 800 = .ok text ∧ (text.utf8ByteSize : ℤ) ≤ 800 := by
  intro refs turn session
  obtain ⟨hartifacts, -, hsession⟩ := prompt_contexts_within_budget fun _ => []
  refine ⟨?_, ?_⟩
  · obtain ⟨hlarge, -⟩ | ⟨⟨ref, hmem, hbad⟩, -⟩ | h := hartifacts refs
      (localArtifactLoader fun _ => .ok (List.replicate 500 97)) 400 (by decide)
    · exact absurd hlarge (by decide +kernel)
    · rw [List.mem_singleton.mp hmem] at hbad
      cases hbad
    · exact h
  · have hreturned : (projectSessionContext (fun _ => []) session .null 800).toOption.isSome := by decide +kernel
    cases htext : projectSessionContext (fun _ => []) session .null 800 with
    | error exc =>
      rw [htext] at hreturned
      cases hreturned
    | ok text => exact ⟨text, rfl, (hsession session .null 800 text htext).1⟩

end CuTracer.Service.Prompt
