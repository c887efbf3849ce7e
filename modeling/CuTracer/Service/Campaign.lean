import CuTracer.Library.Admission
import CuTracer.Library.SortedMap
import CuTracer.Service.Catalog
import Mathlib.Data.Prod.Lex

/-! The gates of a diagnosis campaign: which selectors are sampled, which shard a unit
belongs to, which tools are due, and what the execution and resource budgets admit. -/

namespace CuTracer.Service

/-! ### Times -/

structure Zone where
  id : ℕ
  utcoffset : ℤ → ℤ

/-- A `datetime`: microseconds since the year 1 on the clock of its zone. -/
structure DateTime where
  wall : ℤ
  zone : Option Zone

def DateTime.aware (t : DateTime) : Bool := t.zone.isSome

/-- The time in the common zone. Two times of one zone are compared by their clocks. -/
def DateTime.utc (t : DateTime) : ℤ :=
  t.wall - (t.zone.map fun z => z.utcoffset t.wall).getD 0

/-- `a - b`, in microseconds. -/
def DateTime.sub (a b : DateTime) : ℤ :=
  if a.zone.map Zone.id = b.zone.map Zone.id then a.wall - b.wall else a.utc - b.utc

/-- `a > b`. -/
def DateTime.after (a b : DateTime) : Bool := 0 < a.sub b

/-- `timedelta(days=days)`, in microseconds. -/
def timedeltaDays (days : ℕ) : Planning ℤ :=
  if 999999999 < days then .error .overflow else .ok (days * 86400000000)

/-- `t - timedelta(seconds=seconds)`. -/
def DateTime.before (t : DateTime) (seconds : ℕ) : Planning DateTime :=
  if t.wall - seconds * 1000000 < 0 then .error .overflow
  else .ok { t with wall := t.wall - seconds * 1000000 }

/-! ### Settings -/

inductive CampaignMode where
  | scheduled | onDemand
  deriving DecidableEq

inductive CampaignTool where
  | memcheck | racecheck | initcheck | synccheck | randomDelayStress
  deriving DecidableEq

def CampaignTool.value : CampaignTool → String
  | .memcheck => "memcheck"
  | .racecheck => "racecheck"
  | .initcheck => "initcheck"
  | .synccheck => "synccheck"
  | .randomDelayStress => "random_delay_stress"

structure ToolCadence where
  tool : CampaignTool
  cadenceDays : ℕ

structure CampaignBudget where
  maxRuns : Option ℕ := none
  maxGpuSeconds : Option ℕ := none

structure SandcastleRateBudget where
  maxSubmissions : ℕ
  windowSeconds : ℕ := 60 * 60

structure CampaignResourceBudget where
  maxReasoningTokens : Option ℕ := none
  maxArtifactBytes : Option ℕ := none
  sandcastleRate : Option SandcastleRateBudget := none

structure CampaignResourceEstimate where
  reasoningTokens : ℕ
  artifactBytes : ℕ
  sandcastleSubmissions : ℕ

structure CampaignResourceUsage where
  reasoningTokens : ℕ := 0
  artifactBytes : ℕ := 0

/-- `len(unit_ids) != len(set(unit_ids))`. -/
def duplicateUnits (targets : List CatalogWorkUnit) : Bool :=
  !decide (targets.map CatalogWorkUnit.unitId).Nodup

/-- `sorted(targets, key=lambda item: item.unit.unit_id)`. -/
def byUnitId (targets : List CatalogWorkUnit) : List CatalogWorkUnit :=
  sortOn CatalogWorkUnit.unitId targets

/-! ### Sampling -/

inductive SamplingDisposition where
  | selected | sampledOut
  deriving DecidableEq

structure SamplingDecision where
  target : CatalogWorkUnit
  disposition : SamplingDisposition
  rank : ℕ
  reason : String

variable (target : CatalogWorkUnit)

/-- `_sample_score`, in hexadecimal, which orders as the bytes do. -/
def sampleScore : String :=
  let nul := String.singleton (Char.ofNat 0)
  sha256Text (target.catalogRevision ++ nul ++ target.entryId ++ nul ++ target.sampling.seed ++ nul ++
    toString target.selectorIndex ++ nul ++ target.unit.testId)

def representatives (targets : List CatalogWorkUnit) : Planning (Dict ℕ CatalogWorkUnit) :=
  targets.foldlM (fun d target => do
    let d := d.upsert target.selectorIndex fun old => old.getD target
    let prior := (d.get? target.selectorIndex).getD target
    refuseIf (prior.unit.testId ≠ target.unit.testId)
      "selector index maps to inconsistent test identities" []
    refuseIf (prior.sampling ≠ target.sampling)
      "catalog entry has inconsistent sampling policies" []
    .ok d) Dict.empty

/-- `_selector_ranks`, as the selectors in the order of their ranks. -/
def selectorRanks (targets : List CatalogWorkUnit) : Planning (List ℕ) := do
  let first ← representatives targets
  let ordered := sortOn (fun t : CatalogWorkUnit => toLex (sampleScore t, t.selectorIndex)) first.values
  .ok (ordered.map CatalogWorkUnit.selectorIndex)

def samplingDecision (ranks : List ℕ) (limit : Option ℕ) (target : CatalogWorkUnit) :
    SamplingDecision :=
  let rank := ranks.idxOf target.selectorIndex
  { target := target
    disposition := if limit.all fun n => rank < n then .selected else .sampledOut
    rank := rank
    reason := "selector rank " ++ toString rank ++ " with limit " ++
      ((limit.map toString).getD "None") }

def sampleEntry (targets : List CatalogWorkUnit) : Planning (List SamplingDecision) := do
  refuseIf ((targets.map CatalogWorkUnit.sampling).dedup.length ≠ 1)
    "catalog entry has inconsistent sampling policies" []
  let ranks ← selectorRanks targets
  let limit := targets.head?.bind fun t => t.sampling.maxSelected
  .ok ((byUnitId targets).map (samplingDecision ranks limit))

def planCatalogSampling (targets : List CatalogWorkUnit) (catalogRevision : String) :
    Planning (List SamplingDecision) := do
  refuseIf (blank catalogRevision) "sampling requires a catalog revision" []
  refuseIf (targets.any fun t => t.catalogRevision ≠ catalogRevision)
    "sampling target has the wrong catalog revision" []
  refuseIf (duplicateUnits targets) "sampling targets must have unique unit ids" []
  let grouped := Dict.collect (targets.map fun t => (t.entryId, t))
  let decisions ← (sortOn id grouped.keys).mapM fun entryId =>
    sampleEntry ((grouped.get? entryId).getD [])
  .ok decisions.flatten

/-- `SamplingPlan.selected`. -/
def sampledTargets (decisions : List SamplingDecision) : List CatalogWorkUnit :=
  (decisions.filter fun d => d.disposition = .selected).map SamplingDecision.target

/-! ### Shards -/

def deterministicShard (unitId : String) (shardCount : ℕ) (seed : String) : Planning ℕ := do
  refuseIf (blank unitId) "sharding requires a nonempty unit id" []
  refuseIf (shardCount = 0) "shard_count must be positive" []
  refuseIf (blank seed) "shard seed must not be empty" []
  let digest := sha256Text (seed ++ String.singleton (Char.ofNat 0) ++ unitId)
  .ok (hexValue (digest.toList.take 16) % shardCount)

/-- `assign_catalog_shards`: the units in order, with their shards. -/
def assignCatalogShards (targets : List CatalogWorkUnit) (shardCount : ℕ) (seed : String) :
    Planning (List (CatalogWorkUnit × ℕ)) := do
  refuseIf (duplicateUnits targets) "catalog targets must have unique unit ids" []
  (byUnitId targets).mapM fun target => do
    let shard ← deterministicShard target.unitId shardCount seed
    .ok (target, shard)

/-! ### Cadence -/

inductive CadenceDisposition where
  | due | notDue | notApplicable
  deriving DecidableEq

structure CadenceDecision where
  target : CatalogWorkUnit
  tool : CampaignTool
  disposition : CadenceDisposition
  effectiveCadenceDays : Option ℕ
  lastCompletedAt : Option DateTime
  reason : String

/-- When each tool last completed on each unit. -/
abbrev History := Dict (String × CampaignTool) DateTime

def cadenceDisposition (cadence : ToolCadence) (mode : CampaignMode) (asOf : DateTime)
    (lastCompletedAt : Option DateTime) :
    Planning (CadenceDisposition × String × Option ℕ) := do
  refuseIf (lastCompletedAt.any fun t => t.after asOf)
    "tool completion time must not be in the future" []
  if cadence.tool = .randomDelayStress ∧ target.unit.oracle = none then
    .ok (.notApplicable, "random-delay stress requires an oracle", none)
  else
    let effectiveDays := max target.cadenceDays cadence.cadenceDays
    if mode = .onDemand then
      .ok (.due, "on-demand campaigns bypass cadence", some effectiveDays)
    else
      match lastCompletedAt with
      | none => .ok (.due, "tool has no prior successful run", some effectiveDays)
      | some completed => do
        let span ← timedeltaDays effectiveDays
        if span ≤ asOf.sub completed then .ok (.due, "tool cadence has elapsed", some effectiveDays)
        else .ok (.notDue, "tool cadence has not elapsed", some effectiveDays)

def cadenceDecision (mode : CampaignMode) (asOf : DateTime) (lastCompleted : History)
    (target : CatalogWorkUnit) (cadence : ToolCadence) : Planning CadenceDecision := do
  let completedAt := lastCompleted.get? (target.unitId, cadence.tool)
  refuseIf (completedAt.any fun t => !t.aware) "tool completion time must be timezone-aware" []
  let (disposition, reason, effectiveDays) ←
    cadenceDisposition target cadence mode asOf completedAt
  .ok ⟨target, cadence.tool, disposition, effectiveDays, completedAt, reason⟩

def planToolCadence (targets : List CatalogWorkUnit) (cadences : List ToolCadence)
    (mode : CampaignMode) (asOf : DateTime) (lastCompleted : History) :
    Planning (List CadenceDecision) := do
  refuseIf (!asOf.aware) "campaign as_of must be timezone-aware" []
  refuseIf (duplicateUnits targets) "cadence targets must have unique unit ids" []
  refuseIf (!decide (cadences.map ToolCadence.tool).Nodup) "tool cadences must be unique" []
  let decisions ← (byUnitId targets).mapM fun target =>
    cadences.mapM (cadenceDecision mode asOf lastCompleted target)
  .ok decisions.flatten

/-- `ToolCadencePlan.due_tools`. -/
def dueTools (decisions : List CadenceDecision) (unitId : String) : List CampaignTool :=
  (decisions.filter fun d => d.target.unitId = unitId ∧ d.disposition = .due).map CadenceDecision.tool

/-! ### Budgets -/

inductive BudgetConstraint where
  | runCap | gpuSeconds

def BudgetConstraint.value : BudgetConstraint → String
  | .runCap => "run_cap"
  | .gpuSeconds => "gpu_seconds"

/-- The admitted runs and their GPU seconds. -/
structure ExecutionUsage where
  runs : ℕ := 0
  gpuSeconds : ℕ := 0

abbrev AdmissionDecision := Admission CatalogWorkUnit BudgetConstraint ExecutionUsage

def budgetConstraints (budget : CampaignBudget) (usage : ExecutionUsage)
    (target : CatalogWorkUnit) : List BudgetConstraint :=
  (if budget.maxRuns.any fun n => n ≤ usage.runs then [.runCap] else []) ++
    if budget.maxGpuSeconds.any fun n => n < usage.gpuSeconds + target.estimatedGpuSeconds then
      [.gpuSeconds] else []

def useExecution (usage : ExecutionUsage) (target : CatalogWorkUnit) : ExecutionUsage where
  runs := usage.runs + 1
  gpuSeconds := usage.gpuSeconds + target.estimatedGpuSeconds

def applyCampaignBudget (targets : List CatalogWorkUnit) (budget : CampaignBudget) :
    Planning (List AdmissionDecision) := do
  refuseIf (duplicateUnits targets) "campaign budget targets must have unique unit ids" []
  .ok (Admission.each (budgetConstraints budget) useExecution {} targets)

inductive ResourceConstraint where
  | reasoningTokens | artifactBytes | sandcastleRate

def ResourceConstraint.value : ResourceConstraint → String
  | .reasoningTokens => "reasoning_tokens"
  | .artifactBytes => "artifact_bytes"
  | .sandcastleRate => "sandcastle_rate"

/-- The resources used, and the submissions in the window of the rate. -/
structure ResourceTotal where
  usage : CampaignResourceUsage
  sandcastleSubmissions : ℕ

abbrev ResourceAdmissionDecision := Admission CatalogWorkUnit ResourceConstraint ResourceTotal

abbrev Estimates := Dict String CampaignResourceEstimate

/-- `estimates[target.unit.unit_id]`, of a unit that has one. -/
def estimateOf (estimates : Estimates) (target : CatalogWorkUnit) : CampaignResourceEstimate :=
  (estimates.get? target.unitId).getD ⟨0, 0, 0⟩

/-- `_constraints`. -/
def resourceConstraints (budget : CampaignResourceBudget) (estimates : Estimates)
    (total : ResourceTotal) (target : CatalogWorkUnit) : List ResourceConstraint :=
  let estimate := estimateOf estimates target
  (if budget.maxReasoningTokens.any fun n =>
      n < total.usage.reasoningTokens + estimate.reasoningTokens then [.reasoningTokens] else []) ++
    (if budget.maxArtifactBytes.any fun n =>
      n < total.usage.artifactBytes + estimate.artifactBytes then [.artifactBytes] else []) ++
    if budget.sandcastleRate.any fun rate =>
      rate.maxSubmissions < total.sandcastleSubmissions + estimate.sandcastleSubmissions then
      [.sandcastleRate] else []

def useResources (estimates : Estimates) (total : ResourceTotal) (target : CatalogWorkUnit) :
    ResourceTotal :=
  let estimate := estimateOf estimates target
  { usage :=
      { reasoningTokens := total.usage.reasoningTokens + estimate.reasoningTokens
        artifactBytes := total.usage.artifactBytes + estimate.artifactBytes }
    sandcastleSubmissions := total.sandcastleSubmissions + estimate.sandcastleSubmissions }

def recentSandcastleCount (budget : Option SandcastleRateBudget) (asOf : DateTime)
    (submittedAt : List DateTime) : Planning ℕ :=
  match budget with
  | none => .ok 0
  | some rate => do
    refuseIf (!asOf.aware) "resource budget as_of must be timezone-aware" []
    refuseIf (submittedAt.any fun t => !t.aware)
      "Remote submission times must be timezone-aware" []
    refuseIf (submittedAt.any fun t => t.after asOf)
      "Remote submission time must not be in the future" []
    let windowStart ← asOf.before rate.windowSeconds
    .ok (submittedAt.countP fun t => t.after windowStart)

def applyResourceBudget (targets : List CatalogWorkUnit) (estimates : Estimates)
    (budget : CampaignResourceBudget) (asOf : DateTime) (sandcastleSubmittedAt : List DateTime)
    (initialUsage : Option CampaignResourceUsage) : Planning (List ResourceAdmissionDecision) := do
  refuseIf (duplicateUnits targets) "resource budget targets must have unique unit ids" []
  let missing := (targets.map CatalogWorkUnit.unitId).filter fun id => (estimates.get? id).isNone
  refuseIf (!missing.isEmpty) "resource estimates are missing for: %s" (sortOn id missing)
  let recent ← recentSandcastleCount budget.sandcastleRate asOf sandcastleSubmittedAt
  .ok (Admission.each (resourceConstraints budget estimates) (useResources estimates)
    ⟨initialUsage.getD {}, recent⟩ targets)

/-! ### What each plan holds -/

theorem refuseIf_ok {c : Bool} {message : String} {args : List String} {u : Unit}
    (h : refuseIf c message args = .ok u) : c = false := by
  unfold refuseIf at h
  split_ifs at h with hc
  simpa using hc

variable {targets : List CatalogWorkUnit}

theorem nodup_of_not_duplicate (h : duplicateUnits targets = false) :
    (targets.map CatalogWorkUnit.unitId).Nodup := by
  simpa [duplicateUnits] using h

/-- Grouped by a key, the elements are those there were. -/
theorem perm_groups {α κ : Type} [DecidableEq κ] {key : α → κ} {keys : List κ} {xs : List α}
    (hkeys : keys.Nodup) (hall : ∀ x ∈ xs, key x ∈ keys) :
    (keys.flatMap fun k => xs.filter fun x => key x = k).Perm xs := by
  induction xs with
  | nil => simp
  | cons x xs ih =>
    have hrest := ih fun y hy => hall y (List.mem_cons_of_mem x hy)
    obtain ⟨before, after, rfl⟩ := List.append_of_mem (hall x List.mem_cons_self)
    rw [List.nodup_append, List.nodup_cons] at hkeys
    have hbefore : ∀ k ∈ before, (x :: xs).filter (fun y => key y = k) =
        xs.filter fun y => key y = k := by
      intro k hk
      exact List.filter_cons_of_neg (by simpa using (hkeys.2.2 k hk _ List.mem_cons_self).symm)
    have hafter : ∀ k ∈ after, (x :: xs).filter (fun y => key y = k) =
        xs.filter fun y => key y = k := by
      intro k hk
      refine List.filter_cons_of_neg ?_
      simp only [decide_eq_true_eq]
      rintro rfl
      exact hkeys.2.1.1 hk
    rw [List.flatMap_append, List.flatMap_cons, List.flatMap_congr hbefore,
      List.flatMap_congr hafter, List.filter_cons_of_pos (by simp), List.cons_append]
    rw [List.flatMap_append, List.flatMap_cons] at hrest
    exact List.perm_middle.trans (hrest.cons x)

/-! #### Sampling -/

theorem sampleEntry_targets {decisions : List SamplingDecision}
    (h : sampleEntry targets = .ok decisions) :
    (decisions.map SamplingDecision.target).Perm targets := by
  obtain ⟨_, -, h⟩ := bind_ok h
  obtain ⟨ranks, -, h⟩ := bind_ok h
  cases h
  rw [List.map_map]
  exact (List.map_id _).symm ▸ sortOn_perm _ targets

/-- Every unit is decided about once. -/
theorem planCatalogSampling_targets {revision : String} {decisions : List SamplingDecision}
    (h : planCatalogSampling targets revision = .ok decisions) :
    (targets.map CatalogWorkUnit.unitId).Nodup ∧
      (decisions.map SamplingDecision.target).Perm targets := by
  obtain ⟨_, -, h⟩ := bind_ok h
  obtain ⟨_, -, h⟩ := bind_ok h
  obtain ⟨_, hdup, h⟩ := bind_ok h
  obtain ⟨lists, hlists, h⟩ := bind_ok h
  cases h
  refine ⟨nodup_of_not_duplicate (refuseIf_ok hdup), ?_⟩
  set grouped := Dict.collect (targets.map fun t => (t.entryId, t)) with hgrouped
  have hgroup : ∀ k, (grouped.get? k).getD [] = targets.filter fun t => t.entryId = k := by
    intro k
    rw [hgrouped, Dict.getD_collect, List.filter_map, List.map_map]
    exact List.map_id _
  have hflat := flatten_perm_of_forall₂ ((mapM_ok.mp hlists).imp fun k ds => sampleEntry_targets)
  simp only [hgroup] at hflat
  have hkeys := sortOn_perm id grouped.keys
  refine hflat.trans (perm_groups (hkeys.nodup_iff.mpr grouped.keys_nodup) ?_)
  intro t ht
  rw [hkeys.mem_iff, Dict.mem_keys_iff]
  refine ⟨targets.filter fun t' => t'.entryId = t.entryId, ?_⟩
  rw [Dict.get?_eq_some_iff, hgrouped, Dict.mem_collect]
  refine ⟨List.mem_map.mpr ⟨_, List.mem_map.mpr ⟨t, ht, rfl⟩, rfl⟩, ?_⟩
  rw [List.filter_map, List.map_map]
  exact (List.map_id _).symm

/-! #### Shards -/

/-- Every unit is assigned to its shard, once. -/
theorem assignCatalogShards_ok {shardCount : ℕ} {seed : String}
    {assignments : List (CatalogWorkUnit × ℕ)}
    (h : assignCatalogShards targets shardCount seed = .ok assignments) :
    (targets.map CatalogWorkUnit.unitId).Nodup ∧ (assignments.map Prod.fst).Perm targets ∧
      ∀ a ∈ assignments, deterministicShard a.1.unitId shardCount seed = .ok a.2 := by
  obtain ⟨_, hdup, h⟩ := bind_ok h
  have hassign : List.Forall₂ (fun t a => deterministicShard (CatalogWorkUnit.unitId t) shardCount seed =
      .ok a.2 ∧ a.1 = t) (byUnitId targets) assignments := by
    refine (mapM_ok.mp h).imp ?_
    intro t a ha
    obtain ⟨shard, hshard, ha⟩ := bind_ok ha
    cases ha
    exact ⟨hshard, rfl⟩
  refine ⟨nodup_of_not_duplicate (refuseIf_ok hdup), ?_, ?_⟩
  · have hfst : List.Forall₂ (· = ·) (byUnitId targets) (assignments.map Prod.fst) :=
      List.forall₂_map_right_iff.mpr (hassign.imp fun _ _ h => h.2.symm)
    rw [List.forall₂_eq_eq_eq] at hfst
    rw [← hfst]
    exact sortOn_perm _ targets
  · intro a ha
    obtain ⟨t, -, hshard, rfl⟩ := forall₂_mem_right hassign ha
    exact hshard

theorem deterministicShard_lt {unitId seed : String} {shardCount shard : ℕ}
    (h : deterministicShard unitId shardCount seed = .ok shard) : shard < shardCount := by
  obtain ⟨_, -, h⟩ := bind_ok h
  obtain ⟨_, hcount, h⟩ := bind_ok h
  obtain ⟨_, -, h⟩ := bind_ok h
  cases h
  exact Nat.mod_lt _ (Nat.pos_of_ne_zero (by simpa using refuseIf_ok hcount))

/-! #### Cadence -/

/-- Stress needs an oracle. -/
def NotApplicable (tool : CampaignTool) : Prop :=
  tool = .randomDelayStress ∧ target.unit.oracle = none

/-- The tool completed on the unit within the longer of the two cadences. -/
def NotDue (mode : CampaignMode) (asOf : DateTime) (lastCompleted : History)
    (target : CatalogWorkUnit) (cadence : ToolCadence) : Prop :=
  mode = .scheduled ∧ ∃ completed, lastCompleted.get? (target.unitId, cadence.tool) = some completed ∧
    asOf.sub completed < max target.cadenceDays cadence.cadenceDays * 86400000000

theorem cadenceDecision_ok {mode : CampaignMode} {asOf : DateTime} {lastCompleted : History}
    {target : CatalogWorkUnit} {cadence : ToolCadence} {d : CadenceDecision}
    (h : cadenceDecision mode asOf lastCompleted target cadence = .ok d) :
    d.target = target ∧ d.tool = cadence.tool ∧
      (d.disposition = .notApplicable ∧ NotApplicable target cadence.tool ∨
        d.disposition = .notDue ∧ ¬ NotApplicable target cadence.tool ∧
          NotDue mode asOf lastCompleted target cadence ∨
        d.disposition = .due ∧ ¬ NotApplicable target cadence.tool ∧
          ¬ NotDue mode asOf lastCompleted target cadence) := by
  obtain ⟨_, -, h⟩ := bind_ok h
  obtain ⟨⟨disposition, reason, days⟩, hdisposition, h⟩ := bind_ok h
  cases h
  refine ⟨rfl, rfl, ?_⟩
  simp only
  obtain ⟨_, -, hdisposition⟩ := bind_ok hdisposition
  by_cases happ : cadence.tool = .randomDelayStress ∧ target.unit.oracle = none
  · rw [if_pos happ] at hdisposition
    obtain ⟨rfl, -⟩ := Prod.mk.inj (Except.ok.inj hdisposition)
    exact Or.inl ⟨rfl, happ⟩
  · rw [if_neg happ] at hdisposition
    refine Or.inr ?_
    cases mode with
    | onDemand =>
      obtain ⟨rfl, -⟩ := Prod.mk.inj (Except.ok.inj hdisposition)
      exact Or.inr ⟨rfl, happ, fun hdue => absurd hdue.1 (by decide)⟩
    | scheduled =>
      simp only [reduceCtorEq, if_false] at hdisposition
      cases hlast : lastCompleted.get? (target.unitId, cadence.tool) with
      | none =>
        rw [hlast] at hdisposition
        obtain ⟨rfl, -⟩ := Prod.mk.inj (Except.ok.inj hdisposition)
        refine Or.inr ⟨rfl, happ, ?_⟩
        rintro ⟨-, completed, hcompleted, -⟩
        rw [hlast] at hcompleted
        cases hcompleted
      | some completed =>
        rw [hlast] at hdisposition
        obtain ⟨span, hspan, hdisposition⟩ := bind_ok hdisposition
        have hdays : span = max target.cadenceDays cadence.cadenceDays * 86400000000 := by
          unfold timedeltaDays at hspan
          split_ifs at hspan
          rw [← Except.ok.inj hspan]
        split_ifs at hdisposition with helapsed
        · obtain ⟨rfl, -⟩ := Prod.mk.inj (Except.ok.inj hdisposition)
          refine Or.inr ⟨rfl, happ, ?_⟩
          rintro ⟨-, completed', hcompleted, hlt⟩
          rw [hlast] at hcompleted
          cases hcompleted
          rw [← hdays] at hlt
          exact absurd helapsed (not_le.mpr hlt)
        · obtain ⟨rfl, -⟩ := Prod.mk.inj (Except.ok.inj hdisposition)
          refine Or.inl ⟨rfl, happ, rfl, completed, hlast, ?_⟩
          rw [← hdays]
          exact not_le.mp helapsed

/-- Every pair of a unit and a tool is decided about, and nothing else is. -/
theorem planToolCadence_ok {cadences : List ToolCadence} {mode : CampaignMode} {asOf : DateTime}
    {lastCompleted : History} {decisions : List CadenceDecision}
    (h : planToolCadence targets cadences mode asOf lastCompleted = .ok decisions) :
    (targets.map CatalogWorkUnit.unitId).Nodup ∧ (cadences.map ToolCadence.tool).Nodup ∧
      (decisions.map fun d => (d.target, d.tool)).Perm
        (targets.flatMap fun t => cadences.map fun c => (t, c.tool)) ∧
      ∀ d ∈ decisions, ∃ t ∈ targets, ∃ c ∈ cadences,
        cadenceDecision mode asOf lastCompleted t c = .ok d := by
  obtain ⟨_, -, h⟩ := bind_ok h
  obtain ⟨_, hdup, h⟩ := bind_ok h
  obtain ⟨_, htools, h⟩ := bind_ok h
  obtain ⟨lists, hlists, h⟩ := bind_ok h
  cases h
  refine ⟨nodup_of_not_duplicate (refuseIf_ok hdup), by simpa using refuseIf_ok htools, ?_, ?_⟩
  · refine (flatten_perm_of_forall₂ (g := fun t => cadences.map fun c => (t, c.tool))
      ((mapM_ok.mp hlists).imp ?_)).trans ((sortOn_perm _ targets).flatMap_right _)
    intro t ds hds
    have hpairs : List.Forall₂ (· = ·) (cadences.map fun c => (t, c.tool))
        (ds.map fun d => (d.target, d.tool)) := by
      rw [List.forall₂_map_left_iff, List.forall₂_map_right_iff]
      refine (mapM_ok.mp hds).imp ?_
      intro c d hd
      obtain ⟨rfl, htool, -⟩ := cadenceDecision_ok hd
      rw [htool]
    rw [List.forall₂_eq_eq_eq] at hpairs
    rw [hpairs]
  · intro d hd
    obtain ⟨ds, hds, hd⟩ := List.mem_flatten.mp hd
    obtain ⟨t, ht, hmap⟩ := forall₂_mem_right (mapM_ok.mp hlists) hds
    obtain ⟨c, hc, hdecision⟩ := forall₂_mem_right (mapM_ok.mp hmap) hd
    exact ⟨t, mem_sortOn.mp ht, c, hc, hdecision⟩

/-! #### Budgets -/

theorem applyCampaignBudget_ok {budget : CampaignBudget} {decisions : List AdmissionDecision}
    (h : applyCampaignBudget targets budget = .ok decisions) :
    (targets.map CatalogWorkUnit.unitId).Nodup ∧ decisions.map Admission.target = targets ∧
      (∀ n, budget.maxRuns = some n → (Admission.targets decisions).length ≤ n) ∧
      ∀ n, budget.maxGpuSeconds = some n →
        ((Admission.targets decisions).map CatalogWorkUnit.estimatedGpuSeconds).sum ≤ n := by
  obtain ⟨_, hdup, h⟩ := bind_ok h
  cases h
  refine ⟨nodup_of_not_duplicate (refuseIf_ok hdup), Admission.map_target_each _ _, ?_, ?_⟩
  · intro n hn
    have hcap : ∀ u t, budgetConstraints budget u t = [] → u.runs + 1 ≤ n := by
      intro u t ht
      simp [budgetConstraints, hn] at ht
      omega
    have hsum := Admission.sum_le_cap ExecutionUsage.runs (fun _ => 1) {} targets
      (fun u t => (rfl : (useExecution u t).runs = u.runs + 1)) hcap (Nat.zero_le n)
    simpa using hsum
  · intro n hn
    have hcap : ∀ u t, budgetConstraints budget u t = [] →
        u.gpuSeconds + t.estimatedGpuSeconds ≤ n := by
      intro u t ht
      simp [budgetConstraints, hn] at ht
      omega
    have hsum := Admission.sum_le_cap ExecutionUsage.gpuSeconds CatalogWorkUnit.estimatedGpuSeconds {}
      targets (fun u t => (rfl : (useExecution u t).gpuSeconds = _)) hcap (Nat.zero_le n)
    simpa using hsum

/-- What the admitted units need stays within each resource that was within its budget
before. -/
theorem applyResourceBudget_ok {estimates : Estimates} {budget : CampaignResourceBudget}
    {asOf : DateTime} {submittedAt : List DateTime} {initial : Option CampaignResourceUsage}
    {decisions : List ResourceAdmissionDecision}
    (h : applyResourceBudget targets estimates budget asOf submittedAt initial = .ok decisions) :
    decisions.map Admission.target = targets ∧
      (∀ n, budget.maxReasoningTokens = some n → (initial.getD {}).reasoningTokens ≤ n →
        (initial.getD {}).reasoningTokens + ((Admission.targets decisions).map fun t =>
          (estimateOf estimates t).reasoningTokens).sum ≤ n) ∧
      (∀ n, budget.maxArtifactBytes = some n → (initial.getD {}).artifactBytes ≤ n →
        (initial.getD {}).artifactBytes + ((Admission.targets decisions).map fun t =>
          (estimateOf estimates t).artifactBytes).sum ≤ n) ∧
      ∀ rate recent, budget.sandcastleRate = some rate →
        recentSandcastleCount budget.sandcastleRate asOf submittedAt = .ok recent →
        recent ≤ rate.maxSubmissions → recent + ((Admission.targets decisions).map fun t =>
          (estimateOf estimates t).sandcastleSubmissions).sum ≤ rate.maxSubmissions := by
  obtain ⟨_, -, h⟩ := bind_ok h
  obtain ⟨_, -, h⟩ := bind_ok h
  obtain ⟨recent, hrecent, h⟩ := bind_ok h
  cases h
  refine ⟨Admission.map_target_each _ _, ?_, ?_, ?_⟩
  · intro n hn hstart
    refine Admission.sum_le_cap (fun u : ResourceTotal => u.usage.reasoningTokens)
      (fun t => (estimateOf estimates t).reasoningTokens) ⟨initial.getD {}, recent⟩ targets (fun _ _ => rfl) ?_ hstart
    intro u t ht
    simp [resourceConstraints, hn] at ht
    omega
  · intro n hn hstart
    refine Admission.sum_le_cap (fun u : ResourceTotal => u.usage.artifactBytes)
      (fun t => (estimateOf estimates t).artifactBytes) ⟨initial.getD {}, recent⟩ targets (fun _ _ => rfl) ?_ hstart
    intro u t ht
    simp [resourceConstraints, hn] at ht
    omega
  · intro rate recent' hrate hrecent' hstart
    obtain rfl := Except.ok.inj (hrecent.symm.trans hrecent')
    refine Admission.sum_le_cap ResourceTotal.sandcastleSubmissions
      (fun t => (estimateOf estimates t).sandcastleSubmissions) ⟨initial.getD {}, recent⟩ targets (fun _ _ => rfl) ?_ hstart
    intro u t ht
    simp [resourceConstraints, hrate] at ht
    omega

end CuTracer.Service
