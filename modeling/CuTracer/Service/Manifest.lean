import CuTracer.Service.Campaign

/-! The manifest of a campaign: every pair of a catalog unit and a tool with the gate
that decided about it, and the sessions to run. -/

namespace CuTracer.Service

inductive ManifestOutcome where
  | admitted | disabled | sampledOut | otherShard | notDue | notApplicable | deferredBudget
  deriving DecidableEq

/-- `CampaignPlannerConfig`, as its constructor accepts it. -/
structure CampaignPlannerConfig where
  mode : CampaignMode
  asOf : DateTime
  shardIndex : ℕ
  shardCount : ℕ
  shardSeed : String
  toolCadences : List ToolCadence
  executionBudget : CampaignBudget := {}
  resourceBudget : CampaignResourceBudget := {}
  asOf_aware : asOf.aware = true
  shard_lt : shardIndex < shardCount

structure CampaignManifestItem where
  target : CatalogWorkUnit
  tool : CampaignTool
  outcome : ManifestOutcome
  reasons : List String

structure PlannedCampaignSession where
  target : CatalogWorkUnit
  sanitizerTools : List String
  enableStress : Bool

structure CampaignManifest where
  catalogRevision : String
  catalogDigest : String
  config : CampaignPlannerConfig
  items : List CampaignManifestItem
  sessions : List PlannedCampaignSession

/-- `mapping[key]`. -/
def keyed {ν : Type} (d : Dict String ν) (key : String) : Planning ν :=
  match d.get? key with
  | some v => .ok v
  | none => .error (.key key)

/-- `{key: value for …}`. -/
def dictOf {κ ν : Type} [DecidableEq κ] (es : List (κ × ν)) : Dict κ ν :=
  es.foldl (fun d e => d.insert e.1 e.2) Dict.empty

/-! ### Selection -/

/-- The selection of `_scheduled_sample`. -/
def scheduledSample (active : List CatalogWorkUnit) (plan : List SamplingDecision)
    (mode : CampaignMode) : List CatalogWorkUnit :=
  if mode = .onDemand then active else sampledTargets plan

/-- The selection of `_shard_selection`. -/
def shardSelection (sampled : List CatalogWorkUnit) (assignments : List (CatalogWorkUnit × ℕ))
    (config : CampaignPlannerConfig) : List CatalogWorkUnit :=
  if config.mode = .onDemand then sampled
  else (assignments.filter fun a => a.2 = config.shardIndex).map Prod.fst

def dueTargets (decisions : List CadenceDecision) : List CatalogWorkUnit :=
  ((decisions.filter fun d => d.disposition = .due).foldl
    (fun (d : Dict String CatalogWorkUnit) decision =>
      d.upsert decision.target.unitId fun old => old.getD decision.target) Dict.empty).values

/-! ### Outcomes -/

/-- The plans that the outcomes are read from, by unit and tool. -/
structure Tables where
  sample : Dict String SamplingDisposition
  shards : Dict String ℤ
  cadence : Dict (String × CampaignTool) CadenceDecision
  execution : Dict String AdmissionDecision
  resources : Dict String ResourceAdmissionDecision

namespace Tables

variable (tables : Tables)

def sampledOut (mode : CampaignMode) (unitId : String) : Planning Bool :=
  if mode = .scheduled then do
    let disposition ← keyed tables.sample unitId
    .ok (disposition = .sampledOut)
  else .ok false

def otherShard (config : CampaignPlannerConfig) (unitId : String) : Planning (Option ℤ) :=
  if config.mode = .scheduled then do
    let shard ← keyed tables.shards unitId
    .ok (if shard ≠ config.shardIndex then some shard else none)
  else .ok none

def budgetOutcome (unitId : String) : Planning (ManifestOutcome × List String) := do
  let execution ← keyed tables.execution unitId
  if !execution.admitted then
    .ok (.deferredBudget, execution.constraints.map fun c => "execution:" ++ c.value)
  else do
    let resource ← keyed tables.resources unitId
    if !resource.admitted then
      .ok (.deferredBudget, resource.constraints.map fun c => "resource:" ++ c.value)
    else .ok (.admitted, ["all campaign gates passed"])

/-- The cadence of a pair, and the budgets of what is due. -/
def cadenceOutcome (unitId : String) (tool : CampaignTool) :
    Planning (ManifestOutcome × List String) :=
  match tables.cadence.get? (unitId, tool) with
  | none => .ok (.notApplicable, ["no cadence decision for this tool"])
  | some decision =>
    match decision.disposition with
    | .notApplicable => .ok (.notApplicable, [decision.reason])
    | .notDue => .ok (.notDue, [decision.reason])
    | .due => tables.budgetOutcome unitId

def outcome (config : CampaignPlannerConfig) (target : CatalogWorkUnit) (tool : CampaignTool) :
    Planning (ManifestOutcome × List String) :=
  if !target.enabled then .ok (.disabled, ["catalog entry is disabled"])
  else do
    let sampledOut ← tables.sampledOut config.mode target.unitId
    if sampledOut then .ok (.sampledOut, ["selector excluded by sampling policy"])
    else do
      let other ← tables.otherShard config target.unitId
      match other with
      | some shard => .ok (.otherShard, ["assigned to shard " ++ toString shard])
      | none => tables.cadenceOutcome target.unitId tool

def item (config : CampaignPlannerConfig) (target : CatalogWorkUnit) (cadence : ToolCadence) :
    Planning CampaignManifestItem := do
  let (outcome, reasons) ← tables.outcome config target cadence.tool
  .ok ⟨target, cadence.tool, outcome, reasons⟩

end Tables

def manifestItems (targets : List CatalogWorkUnit) (config : CampaignPlannerConfig)
    (tables : Tables) : Planning (List CampaignManifestItem) := do
  let items ← targets.mapM fun target => config.toolCadences.mapM (tables.item config target)
  .ok items.flatten

/-! ### Sessions -/

/-- The tools of `PlannedCampaignSession` that are not stress. -/
def supportedSanitizers : List String := ["memcheck", "racecheck", "initcheck", "synccheck"]

/-- A session, checked as its constructor does. -/
def plannedSession (target : CatalogWorkUnit) (tools : List CampaignTool) :
    Planning PlannedCampaignSession := do
  let sanitizerTools := (tools.filter fun t => t ≠ .randomDelayStress).map CampaignTool.value
  let enableStress := tools.contains .randomDelayStress
  refuseIf (!decide sanitizerTools.Nodup) "planned sanitizer tools must be unique" []
  refuseIf (sanitizerTools.any fun t => !supportedSanitizers.contains t)
    "planned campaign contains unsupported sanitizer tools" []
  refuseIf (sanitizerTools.isEmpty && !enableStress)
    "planned campaign session requires an evidence source" []
  .ok ⟨target, sanitizerTools, enableStress⟩

/-- The tables of a campaign's plans. -/
def tablesOf (targets : List CatalogWorkUnit) (sample : List SamplingDecision)
    (assignments : List (CatalogWorkUnit × ℕ)) (cadence : List CadenceDecision)
    (execution : List AdmissionDecision) (resources : List ResourceAdmissionDecision) : Tables where
  sample := dictOf (sample.map fun d => (d.target.unitId, d.disposition))
  shards := (assignments.map fun a => (a.1.unitId, (a.2 : ℤ))).foldl
    (fun d e => d.insert e.1 e.2) (dictOf (targets.map fun t => (t.unitId, -1)))
  cadence := dictOf (cadence.map fun d => ((d.target.unitId, d.tool), d))
  execution := dictOf (execution.map fun d => (d.target.unitId, d))
  resources := dictOf (resources.map fun d => (d.target.unitId, d))

def planCampaign (catalog : WorkloadCatalog) (config : CampaignPlannerConfig)
    (resourceEstimates : Estimates) (lastCompleted : History) (sandcastleSubmittedAt : List DateTime)
    (initialResourceUsage : Option CampaignResourceUsage) : Planning CampaignManifest := do
  let allTargets ← expandWorkloadCatalog catalog true
  let active := allTargets.filter CatalogWorkUnit.enabled
  let samplePlan ← planCatalogSampling active catalog.catalogRevision
  let sampled := scheduledSample active samplePlan config.mode
  let assignments ← assignCatalogShards sampled config.shardCount config.shardSeed
  let inShard := shardSelection sampled assignments config
  let cadencePlan ← planToolCadence inShard config.toolCadences config.mode config.asOf lastCompleted
  let executionPlan ← applyCampaignBudget (dueTargets cadencePlan) config.executionBudget
  let resourcePlan ← applyResourceBudget (Admission.targets executionPlan) resourceEstimates
    config.resourceBudget config.asOf sandcastleSubmittedAt initialResourceUsage
  let items ← manifestItems allTargets config
    (tablesOf allTargets samplePlan assignments cadencePlan executionPlan resourcePlan)
  let sessions ← (Admission.targets resourcePlan).mapM fun target =>
    plannedSession target (dueTools cadencePlan target.unitId)
  refuseIf (blank catalog.catalogRevision || catalog.digest.length ≠ 64)
    "campaign manifest requires catalog identity" []
  refuseIf (duplicateUnits (sessions.map PlannedCampaignSession.target))
    "campaign manifest sessions must have unique unit ids" []
  .ok ⟨catalog.catalogRevision, catalog.digest, config, items, sessions⟩

/-! ### Lookups -/

theorem keyed_ok {ν : Type} {d : Dict String ν} {key : String} {v : ν} :
    keyed d key = .ok v ↔ d.get? key = some v := by
  unfold keyed
  split
  · rename_i h
    simp [h]
  · rename_i h
    simp [h]

theorem get?_dictOf {κ ν : Type} [DecidableEq κ] {es : List (κ × ν)} (h : (es.map Prod.fst).Nodup)
    (k : κ) (v : ν) : (dictOf es).get? k = some v ↔ (k, v) ∈ es := by
  rw [dictOf, Dict.get?_foldl_insert h]
  have hempty : (Dict.empty : Dict κ ν).get? k = none := rfl
  rw [hempty, Option.or_none, Dict.lookup_eq_some_iff h]

/-- A table by unit, of decisions about different units. -/
theorem keyed_dictOf {α ν : Type} {ds : List α} {unit : α → CatalogWorkUnit} {value : α → ν}
    (h : ((ds.map unit).map CatalogWorkUnit.unitId).Nodup) {key : String} {v : ν} :
    keyed (dictOf (ds.map fun d => ((unit d).unitId, value d))) key = .ok v ↔
      ∃ d ∈ ds, (unit d).unitId = key ∧ value d = v := by
  have hkeys : ((ds.map fun d => ((unit d).unitId, value d)).map Prod.fst).Nodup := by
    simpa [List.map_map, Function.comp_def] using h
  rw [keyed_ok, get?_dictOf hkeys]
  simp [List.mem_map]

/-! ### Due targets and tools -/

theorem foldl_setdefault {α ν : Type} (g : α → ν) (xs : List α) (v : Option ν) :
    xs.foldl (fun v x => some (v.getD (g x))) v = v.or (xs.head?.map g) := by
  induction xs generalizing v with
  | nil => simp
  | cons x xs ih =>
    rw [List.foldl_cons, ih]
    cases v <;> simp

/-- The units with a due tool, where a unit is told by its id. -/
theorem mem_dueTargets {decisions : List CadenceDecision}
    (hid : ∀ d ∈ decisions, ∀ d' ∈ decisions, d.target.unitId = d'.target.unitId →
      d.target = d'.target) {t : CatalogWorkUnit} :
    t ∈ dueTargets decisions ↔ ∃ d ∈ decisions, d.disposition = .due ∧ d.target = t := by
  set due := decisions.filter fun d => d.disposition = .due with hdue
  have hget : ∀ k, (due.foldl (fun (d : Dict String CatalogWorkUnit) decision =>
      d.upsert decision.target.unitId fun old => old.getD decision.target) Dict.empty).get? k =
        ((due.filter fun d => d.target.unitId = k).head?).map CadenceDecision.target := by
    intro k
    rw [Dict.get?_foldl_upsert (fun d : CadenceDecision => d.target.unitId)
      (fun d old => old.getD d.target), foldl_setdefault]
    rfl
  have hvalues : t ∈ dueTargets decisions ↔ ∃ k,
      ((due.filter fun d => d.target.unitId = k).head?).map CadenceDecision.target = some t := by
    simp only [dueTargets, ← hdue, Dict.values, List.mem_map, ← hget, Dict.get?_eq_some_iff]
    constructor
    · rintro ⟨⟨k, t'⟩, hmem, rfl⟩
      exact ⟨k, hmem⟩
    · rintro ⟨k, hmem⟩
      exact ⟨(k, t), hmem, rfl⟩
  rw [hvalues]
  constructor
  · rintro ⟨k, hk⟩
    obtain ⟨d, hd, rfl⟩ := Option.map_eq_some_iff.mp hk
    have hmem := List.mem_of_mem_filter (List.mem_of_head? hd)
    obtain ⟨hd', hdisposition⟩ := List.mem_filter.mp hmem
    exact ⟨d, hd', of_decide_eq_true hdisposition, rfl⟩
  · rintro ⟨d, hd, hdisposition, rfl⟩
    have hmem : d ∈ due.filter fun d' => d'.target.unitId = d.target.unitId :=
      List.mem_filter.mpr ⟨List.mem_filter.mpr ⟨hd, by simpa using hdisposition⟩, by simp⟩
    refine ⟨d.target.unitId, ?_⟩
    cases hhead : (due.filter fun d' => d'.target.unitId = d.target.unitId).head? with
    | none =>
      rw [List.head?_eq_none_iff] at hhead
      rw [hhead] at hmem
      cases hmem
    | some d' =>
      have hmem' := List.mem_of_head? hhead
      obtain ⟨hdue', hunit⟩ := List.mem_filter.mp hmem'
      have hd' := List.mem_of_mem_filter hdue'
      exact congrArg some (hid d' hd' d hd (of_decide_eq_true hunit))

theorem mem_dueTools {decisions : List CadenceDecision} {unitId : String} {tool : CampaignTool} :
    tool ∈ dueTools decisions unitId ↔
      ∃ d ∈ decisions, d.target.unitId = unitId ∧ d.disposition = .due ∧ d.tool = tool := by
  simp only [dueTools, List.mem_map, List.mem_filter, decide_eq_true_eq]
  constructor
  · rintro ⟨d, ⟨hd, hunit, hdue⟩, rfl⟩
    exact ⟨d, hd, hunit, hdue, rfl⟩
  · rintro ⟨d, hd, hunit, hdue, rfl⟩
    exact ⟨d, ⟨hd, hunit, hdue⟩, rfl⟩

/-! ### Sessions and their tools -/

def PlannedCampaignSession.carries (session : PlannedCampaignSession) (tool : CampaignTool) : Bool :=
  if tool = .randomDelayStress then session.enableStress
  else session.sanitizerTools.contains tool.value

theorem CampaignTool.value_injective : Function.Injective CampaignTool.value := by
  intro a b h
  cases a <;> cases b <;> first | rfl | exact absurd h (by decide +kernel)

theorem plannedSession_ok {target : CatalogWorkUnit} {tools : List CampaignTool}
    {session : PlannedCampaignSession} (h : plannedSession target tools = .ok session) :
    session.target = target ∧ ∀ tool, session.carries tool = true ↔ tool ∈ tools := by
  obtain ⟨_, -, h⟩ := bind_ok h
  obtain ⟨_, -, h⟩ := bind_ok h
  obtain ⟨_, -, h⟩ := bind_ok h
  cases h
  refine ⟨rfl, fun tool => ?_⟩
  unfold PlannedCampaignSession.carries
  simp only
  split_ifs with hstress
  · rw [hstress, List.contains_iff_mem]
  · rw [List.contains_iff_mem, List.mem_map_of_injective CampaignTool.value_injective]
    simp [hstress]

end CuTracer.Service
