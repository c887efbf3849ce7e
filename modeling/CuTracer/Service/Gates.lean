import CuTracer.Service.Manifest

/-! The manifest says what the campaign does: every pair of a catalog unit and a tool is
named once, with the first gate that excluded it, and the pairs that no gate excluded are
exactly those that the sessions run. -/

namespace CuTracer.Service

/-! ### The plans of a campaign -/

structure Stages where
  targets : List CatalogWorkUnit
  sample : List SamplingDecision
  assignments : List (CatalogWorkUnit × ℕ)
  cadence : List CadenceDecision
  execution : List AdmissionDecision
  resources : List ResourceAdmissionDecision

namespace Stages

def active (s : Stages) : List CatalogWorkUnit := s.targets.filter CatalogWorkUnit.enabled

def sampled (s : Stages) (config : CampaignPlannerConfig) : List CatalogWorkUnit :=
  scheduledSample s.active s.sample config.mode

def inShard (s : Stages) (config : CampaignPlannerConfig) : List CatalogWorkUnit :=
  shardSelection (s.sampled config) s.assignments config

def tables (s : Stages) : Tables :=
  tablesOf s.targets s.sample s.assignments s.cadence s.execution s.resources

end Stages

structure CampaignInputs where
  estimates : Estimates
  lastCompleted : History
  submittedAt : List DateTime
  initialUsage : Option CampaignResourceUsage

def CampaignInputs.plan (inputs : CampaignInputs) (catalog : WorkloadCatalog)
    (config : CampaignPlannerConfig) : Planning CampaignManifest :=
  planCampaign catalog config inputs.estimates inputs.lastCompleted inputs.submittedAt
    inputs.initialUsage

structure Stages.Of (s : Stages) (catalog : WorkloadCatalog) (config : CampaignPlannerConfig)
    (inputs : CampaignInputs) : Prop where
  expanded : expandWorkloadCatalog catalog true = .ok s.targets
  sample : planCatalogSampling s.active catalog.catalogRevision = .ok s.sample
  assigned : assignCatalogShards (s.sampled config) config.shardCount config.shardSeed =
    .ok s.assignments
  cadence : planToolCadence (s.inShard config) config.toolCadences config.mode config.asOf
    inputs.lastCompleted = .ok s.cadence
  execution : applyCampaignBudget (dueTargets s.cadence) config.executionBudget = .ok s.execution
  resources : applyResourceBudget (Admission.targets s.execution) inputs.estimates
    config.resourceBudget config.asOf inputs.submittedAt inputs.initialUsage = .ok s.resources

theorem planCampaign_stages {catalog : WorkloadCatalog} {config : CampaignPlannerConfig}
    {inputs : CampaignInputs} {manifest : CampaignManifest}
    (h : inputs.plan catalog config = .ok manifest) :
    ∃ s : Stages, s.Of catalog config inputs ∧
      manifestItems s.targets config s.tables = .ok manifest.items ∧
      (Admission.targets s.resources).mapM
        (fun t => plannedSession t (dueTools s.cadence t.unitId)) = .ok manifest.sessions ∧
      ((manifest.sessions.map PlannedCampaignSession.target).map CatalogWorkUnit.unitId).Nodup := by
  obtain ⟨targets, htargets, h⟩ := bind_ok h
  obtain ⟨sample, hsample, h⟩ := bind_ok h
  obtain ⟨assignments, hassigned, h⟩ := bind_ok h
  obtain ⟨cadence, hcadence, h⟩ := bind_ok h
  obtain ⟨execution, hexecution, h⟩ := bind_ok h
  obtain ⟨resources, hresources, h⟩ := bind_ok h
  obtain ⟨items, hitems, h⟩ := bind_ok h
  obtain ⟨sessions, hsessions, h⟩ := bind_ok h
  obtain ⟨_, -, h⟩ := bind_ok h
  obtain ⟨_, hdup, h⟩ := bind_ok h
  cases h
  exact ⟨⟨targets, sample, assignments, cadence, execution, resources⟩,
    ⟨htargets, hsample, hassigned, hcadence, hexecution, hresources⟩, hitems, hsessions,
    nodup_of_not_duplicate (refuseIf_ok hdup)⟩

/-- Stages that all succeed are those of a plan. -/
theorem planCampaign_of_stages {catalog : WorkloadCatalog} {config : CampaignPlannerConfig}
    {inputs : CampaignInputs} {s : Stages} {items : List CampaignManifestItem}
    {sessions : List PlannedCampaignSession} (hs : s.Of catalog config inputs)
    (hitems : manifestItems s.targets config s.tables = .ok items)
    (hsessions : (Admission.targets s.resources).mapM
      (fun t => plannedSession t (dueTools s.cadence t.unitId)) = .ok sessions)
    (hrevision : blank catalog.catalogRevision = false) (hdigest : catalog.digest.length = 64)
    (hunique : duplicateUnits (sessions.map PlannedCampaignSession.target) = false) :
    inputs.plan catalog config =
      .ok ⟨catalog.catalogRevision, catalog.digest, config, items, sessions⟩ := by
  obtain ⟨hexpanded, hsample, hassigned, hcadence, hexecution, hresources⟩ := hs
  unfold Stages.tables at hitems
  unfold Stages.inShard at hcadence
  unfold Stages.sampled at hassigned hcadence
  unfold Stages.active at *
  unfold CampaignInputs.plan planCampaign
  simp only [hexpanded, hsample, hassigned, hcadence, hexecution, hresources, hitems, hsessions, ok_bind]
  simp [refuseIf, hrevision, hdigest, hunique]

/-! ### Gates -/

inductive Gate where
  | disabled | sampledOut | otherShard | notApplicable | notDue | budget
  deriving DecidableEq

namespace Gate

def order : Gate → ℕ
  | disabled => 0
  | sampledOut => 1
  | otherShard => 2
  | notApplicable => 3
  | notDue => 4
  | budget => 5

def outcome : Gate → ManifestOutcome
  | disabled => .disabled
  | sampledOut => .sampledOut
  | otherShard => .otherShard
  | notApplicable => .notApplicable
  | notDue => .notDue
  | budget => .deferredBudget

def Excludes (config : CampaignPlannerConfig) (inputs : CampaignInputs) (s : Stages)
    (t : CatalogWorkUnit) (c : ToolCadence) : Gate → Prop
  | disabled => t.enabled = false
  | sampledOut => config.mode = .scheduled ∧ t ∉ sampledTargets s.sample
  | otherShard => config.mode = .scheduled ∧
      deterministicShard t.unitId config.shardCount config.shardSeed ≠ .ok config.shardIndex
  | notApplicable => NotApplicable t c.tool
  | notDue => NotDue config.mode config.asOf inputs.lastCompleted t c
  | budget => (∃ d ∈ s.execution, d.target = t ∧ d.admitted = false) ∨
      ∃ d ∈ s.resources, d.target = t ∧ d.admitted = false

def First (excludes : Gate → Prop) (g : Gate) : Prop :=
  excludes g ∧ ∀ g' : Gate, g'.order < g.order → ¬ excludes g'

def Names (excludes : Gate → Prop) (o : ManifestOutcome) : Prop :=
  (o = .admitted ∧ ∀ g, ¬ excludes g) ∨ ∃ g, o = g.outcome ∧ First excludes g

end Gate

/-! ### The stages hold the pairs that passed -/

section Stages

variable {catalog : WorkloadCatalog} {config : CampaignPlannerConfig} {inputs : CampaignInputs}
  {s : Stages} (hs : s.Of catalog config inputs)

/-- Different units with different tools are different pairs. -/
theorem pairs_nodup {targets : List CatalogWorkUnit} {cadences : List ToolCadence}
    (htargets : targets.Nodup) (htools : (cadences.map ToolCadence.tool).Nodup) :
    (targets.flatMap fun t => cadences.map fun c => (t, c.tool)).Nodup := by
  rw [List.nodup_flatMap]
  constructor
  · intro t _
    have hmap : (cadences.map fun c => (t, c.tool)) =
        (cadences.map ToolCadence.tool).map (Prod.mk t) := by simp
    rw [hmap]
    exact htools.map (Prod.mk_right_injective t)
  · refine htargets.imp ?_
    intro t t' hne
    simp only [List.disjoint_left, List.mem_map]
    rintro _ ⟨c, -, rfl⟩ ⟨c', -, hc'⟩
    exact hne (congrArg Prod.fst hc').symm

theorem mode_cases (mode : CampaignMode) : mode = .scheduled ∨ mode = .onDemand := by
  cases mode
  · exact Or.inl rfl
  · exact Or.inr rfl

variable {t : CatalogWorkUnit}

theorem mem_active : t ∈ s.active ↔ t ∈ s.targets ∧ t.enabled = true :=
  List.mem_filter

include hs

theorem active_nodup : (s.active.map CatalogWorkUnit.unitId).Nodup :=
  (planCatalogSampling_targets hs.sample).1

theorem eq_of_unitId {t t' : CatalogWorkUnit} (ht : t ∈ s.active) (ht' : t' ∈ s.active)
    (h : t.unitId = t'.unitId) : t = t' := List.inj_on_of_nodup_map (active_nodup hs) ht ht' h

theorem mem_sampledTargets (h : t ∈ sampledTargets s.sample) : t ∈ s.active := by
  obtain ⟨d, hd, rfl⟩ := List.mem_map.mp h
  exact (planCatalogSampling_targets hs.sample).2.mem_iff.mp
    (List.mem_map_of_mem (List.mem_of_mem_filter hd))

theorem mem_sampled : t ∈ s.sampled config ↔
    t ∈ s.active ∧ (config.mode = .scheduled → t ∈ sampledTargets s.sample) := by
  unfold Stages.sampled scheduledSample
  split_ifs with hmode
  · simp [hmode]
  · have hscheduled := (mode_cases config.mode).resolve_right hmode
    simp only [hscheduled, forall_const]
    exact ⟨fun h => ⟨mem_sampledTargets hs h, h⟩, And.right⟩

theorem mem_inShard : t ∈ s.inShard config ↔ t ∈ s.sampled config ∧
    (config.mode = .scheduled →
      deterministicShard t.unitId config.shardCount config.shardSeed = .ok config.shardIndex) := by
  obtain ⟨-, hperm, hshard⟩ := assignCatalogShards_ok hs.assigned
  unfold Stages.inShard shardSelection
  split_ifs with hmode
  · simp [hmode]
  · have hscheduled := (mode_cases config.mode).resolve_right hmode
    simp only [hscheduled, forall_const, List.mem_map, List.mem_filter, decide_eq_true_eq]
    constructor
    · rintro ⟨a, ⟨ha, hindex⟩, rfl⟩
      exact ⟨hperm.mem_iff.mp (List.mem_map_of_mem ha), hindex ▸ hshard a ha⟩
    · rintro ⟨ht, hindex⟩
      obtain ⟨a, ha, rfl⟩ := List.mem_map.mp (hperm.mem_iff.mpr ht)
      exact ⟨a, ⟨ha, Except.ok.inj ((hshard a ha).symm.trans hindex)⟩, rfl⟩

theorem inShard_active (h : t ∈ s.inShard config) : t ∈ s.active :=
  ((mem_sampled hs).mp ((mem_inShard hs).mp h).1).1

/-- The decision about a unit of the shard and a tool. -/
theorem cadence_decision (ht : t ∈ s.inShard config) {c : ToolCadence}
    (hc : c ∈ config.toolCadences) : ∃ d ∈ s.cadence, d.target = t ∧ d.tool = c.tool ∧
      cadenceDecision config.mode config.asOf inputs.lastCompleted t c = .ok d := by
  obtain ⟨-, htools, hperm, hall⟩ := planToolCadence_ok hs.cadence
  have hpair : (t, c.tool) ∈ s.cadence.map fun d => (d.target, d.tool) :=
    hperm.mem_iff.mpr (List.mem_flatMap.mpr ⟨t, ht, List.mem_map_of_mem hc⟩)
  obtain ⟨d, hd, hd'⟩ := List.mem_map.mp hpair
  obtain ⟨rfl, htool⟩ := Prod.mk.inj hd'
  obtain ⟨t', ht', c', hc', hdecision⟩ := hall d hd
  obtain ⟨htarget, htool', -⟩ := cadenceDecision_ok hdecision
  obtain rfl : c' = c := List.inj_on_of_nodup_map htools hc' hc (htool'.symm.trans htool)
  exact ⟨d, hd, rfl, htool, htarget ▸ hdecision⟩

theorem cadence_target {d : CadenceDecision} (hd : d ∈ s.cadence) : d.target ∈ s.inShard config := by
  obtain ⟨-, -, -, hall⟩ := planToolCadence_ok hs.cadence
  obtain ⟨t, ht, c, -, hdecision⟩ := hall d hd
  rw [(cadenceDecision_ok hdecision).1]
  exact ht

theorem cadence_nodup : (s.cadence.map fun d => (d.target, d.tool)).Nodup := by
  obtain ⟨hnodup, htools, hperm, -⟩ := planToolCadence_ok hs.cadence
  rw [hperm.nodup_iff]
  exact pairs_nodup (List.Nodup.of_map _ hnodup) htools

/-- There is one decision about a unit and a tool. -/
theorem cadence_unique {d d' : CadenceDecision} (hd : d ∈ s.cadence) (hd' : d' ∈ s.cadence)
    (hunit : d.target.unitId = d'.target.unitId) (htool : d.tool = d'.tool) : d = d' := by
  have htarget := eq_of_unitId hs (inShard_active hs (cadence_target hs hd))
    (inShard_active hs (cadence_target hs hd')) hunit
  exact List.inj_on_of_nodup_map (cadence_nodup hs) hd hd' (Prod.ext htarget htool)

theorem mem_due :
    t ∈ dueTargets s.cadence ↔ ∃ d ∈ s.cadence, d.disposition = .due ∧ d.target = t := by
  apply mem_dueTargets
  intro d hd d' hd' hunit
  exact eq_of_unitId hs (inShard_active hs (cadence_target hs hd))
    (inShard_active hs (cadence_target hs hd')) hunit

theorem execution_units : (s.execution.map Admission.target).map CatalogWorkUnit.unitId |>.Nodup := by
  obtain ⟨hnodup, htargets, -⟩ := applyCampaignBudget_ok hs.execution
  rw [htargets]
  exact hnodup

theorem mem_execution : t ∈ s.execution.map Admission.target ↔ t ∈ dueTargets s.cadence := by
  rw [(applyCampaignBudget_ok hs.execution).2.1]

theorem mem_resources :
    t ∈ s.resources.map Admission.target ↔ t ∈ Admission.targets s.execution := by
  rw [(applyResourceBudget_ok hs.resources).1]

theorem resources_units : ((s.resources.map Admission.target).map CatalogWorkUnit.unitId).Nodup := by
  rw [(applyResourceBudget_ok hs.resources).1]
  exact (execution_units hs).sublist ((List.filter_sublist.map _).map _)

/-- An admitted unit has a due tool. -/
theorem due_of_admitted (h : t ∈ Admission.targets s.resources) :
    t ∈ Admission.targets s.execution ∧ t ∈ dueTargets s.cadence ∧ t ∈ s.inShard config := by
  obtain ⟨d, hd, rfl, -⟩ := Admission.mem_targets.mp h
  have hexecution := (mem_resources hs).mp (List.mem_map_of_mem hd)
  obtain ⟨d', hd', heq, -⟩ := Admission.mem_targets.mp hexecution
  have hdue := (mem_execution hs).mp (List.mem_map.mpr ⟨d', hd', heq⟩)
  obtain ⟨cd, hcd, -, hcd'⟩ := (mem_due hs).mp hdue
  exact ⟨hexecution, hdue, hcd' ▸ cadence_target hs hcd⟩

/-! ### Outcomes -/

variable {t : CatalogWorkUnit} {c : ToolCadence}

theorem sampledOut_iff (ht : t ∈ s.active) {b : Bool}
    (h : s.tables.sampledOut config.mode t.unitId = .ok b) :
    b = true ↔ Gate.Excludes config inputs s t c .sampledOut := by
  obtain ⟨hnodup, hperm⟩ := planCatalogSampling_targets hs.sample
  have hunits : ((s.sample.map SamplingDecision.target).map CatalogWorkUnit.unitId).Nodup :=
    (hperm.map _).nodup_iff.mpr hnodup
  unfold Tables.sampledOut at h
  simp only [Gate.Excludes]
  split_ifs at h with hmode
  · obtain ⟨disposition, hdisposition, h⟩ := bind_ok h
    cases h
    obtain ⟨d, hd, hunit, rfl⟩ := (keyed_dictOf hunits).mp hdisposition
    have htarget : d.target = t :=
      eq_of_unitId hs (hperm.mem_iff.mp (List.mem_map_of_mem hd)) ht hunit
    subst htarget
    simp only [hmode, true_and, decide_eq_true_eq, sampledTargets, List.mem_map, List.mem_filter]
    constructor
    · rintro hout ⟨d', ⟨hd', hselected⟩, htarget⟩
      have heq : d' = d := List.inj_on_of_nodup_map (List.Nodup.of_map _ hunits) hd' hd htarget
      rw [heq, hout] at hselected
      cases hselected
    · intro hno
      by_contra hout
      refine hno ⟨d, ⟨hd, ?_⟩, rfl⟩
      cases hd' : d.disposition
      · rfl
      · exact absurd hd' hout
  · cases h
    simp [hmode]

theorem otherShard_iff (ht : t ∈ s.sampled config) {other : Option ℤ}
    (h : s.tables.otherShard config t.unitId = .ok other) :
    other.isSome = true ↔ Gate.Excludes config inputs s t c .otherShard := by
  obtain ⟨hnodup, hperm, hshard⟩ := assignCatalogShards_ok hs.assigned
  unfold Tables.otherShard at h
  simp only [Gate.Excludes]
  split_ifs at h with hmode
  · obtain ⟨shard, hlookup, hother⟩ := bind_ok h
    obtain ⟨a, ha, rfl⟩ := List.mem_map.mp (hperm.mem_iff.mpr ht)
    have hkeys : ((s.assignments.map fun a => (a.1.unitId, (a.2 : ℤ))).map Prod.fst).Nodup := by
      have hmap := (hperm.map CatalogWorkUnit.unitId).nodup_iff.mpr hnodup
      simpa [List.map_map, Function.comp_def] using hmap
    have hvalue : shard = a.2 := by
      have hget := keyed_ok.mp hlookup
      simp only [Stages.tables, tablesOf] at hget
      rw [Dict.get?_foldl_insert hkeys] at hget
      have hmem : Dict.lookup a.1.unitId (s.assignments.map fun a => (a.1.unitId, (a.2 : ℤ))) =
          some (a.2 : ℤ) := (Dict.lookup_eq_some_iff hkeys _ _).mpr (List.mem_map_of_mem ha)
      rw [hmem] at hget
      exact (Option.some.inj hget).symm
    cases hother
    rw [hvalue, hshard a ha]
    simp only [hmode, true_and, ne_eq, Except.ok.injEq]
    split_ifs with hindex
    · simpa using hindex
    · simpa using hindex
  · cases h
    simp [hmode]

theorem due_active (h : t ∈ dueTargets s.cadence) : t ∈ s.active := by
  obtain ⟨d, hd, -, rfl⟩ := (mem_due hs).mp h
  exact inShard_active hs (cadence_target hs hd)

/-- The decision of a budget that the tables hold for a unit is the one about it. -/
theorem execution_decision (ht : t ∈ dueTargets s.cadence) {d : AdmissionDecision}
    (h : keyed s.tables.execution t.unitId = .ok d) : d ∈ s.execution ∧ d.target = t := by
  obtain ⟨d', hd', hunit, rfl⟩ := (keyed_dictOf (execution_units hs)).mp h
  have hdue := (mem_execution hs).mp (List.mem_map_of_mem hd')
  exact ⟨hd', eq_of_unitId hs (due_active hs hdue) (due_active hs ht) hunit⟩

theorem resource_decision (ht : t ∈ dueTargets s.cadence) {d : ResourceAdmissionDecision}
    (h : keyed s.tables.resources t.unitId = .ok d) : d ∈ s.resources ∧ d.target = t := by
  obtain ⟨d', hd', hunit, rfl⟩ := (keyed_dictOf (resources_units hs)).mp h
  obtain ⟨e, he, heq, -⟩ := Admission.mem_targets.mp
    ((mem_resources hs).mp (List.mem_map_of_mem hd'))
  have hdue := (mem_execution hs).mp (List.mem_map.mpr ⟨e, he, heq⟩)
  exact ⟨hd', eq_of_unitId hs (due_active hs hdue) (due_active hs ht) hunit⟩

/-- There is one decision of each budget about a unit. -/
theorem not_budget {d : AdmissionDecision} (hd : d ∈ s.execution) (hdt : d.target = t)
    (hda : d.admitted = true) {r : ResourceAdmissionDecision} (hr : r ∈ s.resources)
    (hrt : r.target = t) (hra : r.admitted = true) :
    ¬ Gate.Excludes config inputs s t c .budget := by
  rintro (⟨d', hd', hdt', hda'⟩ | ⟨r', hr', hrt', hra'⟩)
  · have heq : d' = d := List.inj_on_of_nodup_map (List.Nodup.of_map _ (execution_units hs)) hd' hd
      (hdt'.trans hdt.symm)
    rw [heq, hda] at hda'
    cases hda'
  · have heq : r' = r := List.inj_on_of_nodup_map (List.Nodup.of_map _ (resources_units hs)) hr' hr
      (hrt'.trans hrt.symm)
    rw [heq, hra] at hra'
    cases hra'

theorem budgetOutcome_cases (ht : t ∈ dueTargets s.cadence) {o : ManifestOutcome}
    {reasons : List String} (h : s.tables.budgetOutcome t.unitId = .ok (o, reasons)) :
    o = .deferredBudget ∧ Gate.Excludes config inputs s t c .budget ∨
      o = .admitted ∧ ¬ Gate.Excludes config inputs s t c .budget := by
  obtain ⟨d, hd, h⟩ := bind_ok h
  obtain ⟨hd, hdt⟩ := execution_decision hs ht hd
  cases hda : d.admitted with
  | false =>
    simp only [hda, Bool.not_false, if_true] at h
    obtain ⟨rfl, -⟩ := Prod.mk.inj (Except.ok.inj h)
    exact Or.inl ⟨rfl, Or.inl ⟨d, hd, hdt, hda⟩⟩
  | true =>
    simp only [hda, Bool.not_true, Bool.false_eq_true, if_false] at h
    obtain ⟨r, hr, h⟩ := bind_ok h
    obtain ⟨hr, hrt⟩ := resource_decision hs ht hr
    cases hra : r.admitted with
    | false =>
      simp only [hra, Bool.not_false, if_true] at h
      obtain ⟨rfl, -⟩ := Prod.mk.inj (Except.ok.inj h)
      exact Or.inl ⟨rfl, Or.inr ⟨r, hr, hrt, hra⟩⟩
    | true =>
      simp only [hra, Bool.not_true, Bool.false_eq_true, if_false] at h
      obtain ⟨rfl, -⟩ := Prod.mk.inj (Except.ok.inj h)
      exact Or.inr ⟨rfl, not_budget hs hd hdt hda hr hrt hra⟩

/-- The cadence that the tables hold for a pair of the shard is the decision about it. -/
theorem tables_cadence {d : CadenceDecision} (hd : d ∈ s.cadence) :
    s.tables.cadence.get? (d.target.unitId, d.tool) = some d := by
  have hkeys : ((s.cadence.map fun d => ((d.target.unitId, d.tool), d)).map Prod.fst).Nodup := by
    rw [List.map_map]
    apply List.Nodup.map_on
    · intro a ha b hb hab
      obtain ⟨hunit, htool⟩ := Prod.mk.inj hab
      exact cadence_unique hs ha hb hunit htool
    · exact List.Nodup.of_map _ (cadence_nodup hs)
  exact (get?_dictOf hkeys _ _).mpr (List.mem_map_of_mem hd)

omit hs in
/-- A gate is the first when no gate before it excludes. -/
theorem Gate.names {excludes : Gate → Prop} (g : Gate) (h : excludes g)
    (hbefore : ∀ g' : Gate, g'.order < g.order → ¬ excludes g') :
    Gate.Names excludes g.outcome := Or.inr ⟨g, rfl, h, hbefore⟩

theorem cadenceOutcome_names (ht : t ∈ s.inShard config) (hc : c ∈ config.toolCadences)
    (hbefore : ∀ g : Gate, g.order < 3 → ¬ g.Excludes config inputs s t c) {o : ManifestOutcome}
    {reasons : List String} (h : s.tables.cadenceOutcome t.unitId c.tool = .ok (o, reasons)) :
    Gate.Names (Gate.Excludes config inputs s t c) o := by
  obtain ⟨d, hd, rfl, htool, hdecision⟩ := cadence_decision hs ht hc
  obtain ⟨-, -, hcases⟩ := cadenceDecision_ok hdecision
  have hlookup := tables_cadence hs hd
  rw [htool] at hlookup
  unfold Tables.cadenceOutcome at h
  simp only [hlookup] at h
  rcases hcases with ⟨hdisposition, happ⟩ | ⟨hdisposition, happ, hdue⟩ | ⟨hdisposition, happ, hdue⟩
  · rw [hdisposition] at h
    obtain ⟨rfl, -⟩ := Prod.mk.inj (Except.ok.inj h)
    exact Gate.names .notApplicable happ hbefore
  · rw [hdisposition] at h
    obtain ⟨rfl, -⟩ := Prod.mk.inj (Except.ok.inj h)
    refine Gate.names .notDue hdue ?_
    intro g hg
    cases g with
    | notApplicable => exact happ
    | notDue => exact absurd hg (lt_irrefl _)
    | budget => exact absurd hg (by decide)
    | _ => exact hbefore _ (by decide)
  · rw [hdisposition] at h
    have hbudget : ∀ g : Gate, g ≠ .budget → ¬ g.Excludes config inputs s d.target c := by
      intro g hg
      cases g with
      | notApplicable => exact happ
      | notDue => exact hdue
      | budget => exact absurd rfl hg
      | _ => exact hbefore _ (by decide)
    have hmem : d.target ∈ dueTargets s.cadence := (mem_due hs).mpr ⟨d, hd, hdisposition, rfl⟩
    rcases budgetOutcome_cases (c := c) hs hmem h with ⟨rfl, hexcluded⟩ | ⟨rfl, hpassed⟩
    · refine Gate.names .budget hexcluded ?_
      intro g hg
      refine hbudget g ?_
      rintro rfl
      exact absurd hg (lt_irrefl _)
    · refine Or.inl ⟨rfl, ?_⟩
      intro g
      by_cases hg : g = .budget
      · rw [hg]
        exact hpassed
      · exact hbudget g hg

/-- An outcome names the first gate that excludes the pair. -/
theorem outcome_names (ht : t ∈ s.targets) (hc : c ∈ config.toolCadences) {o : ManifestOutcome}
    {reasons : List String} (h : s.tables.outcome config t c.tool = .ok (o, reasons)) :
    Gate.Names (Gate.Excludes config inputs s t c) o := by
  unfold Tables.outcome at h
  cases henabled : t.enabled with
  | false =>
    simp only [henabled, Bool.not_false, if_true] at h
    obtain ⟨rfl, -⟩ := Prod.mk.inj (Except.ok.inj h)
    exact Gate.names .disabled henabled fun g hg => absurd hg (Nat.not_lt_zero _)
  | true =>
    simp only [henabled, Bool.not_true, Bool.false_eq_true, if_false] at h
    have hactive := mem_active.mpr ⟨ht, henabled⟩
    have hdisabled : ¬ Gate.Excludes config inputs s t c .disabled := by
      simp [Gate.Excludes, henabled]
    obtain ⟨out, hout, h⟩ := bind_ok h
    have hsampling : out = true ↔ Gate.Excludes config inputs s t c .sampledOut :=
      sampledOut_iff hs hactive hout
    split_ifs at h with hb
    · obtain ⟨rfl, -⟩ := Prod.mk.inj (Except.ok.inj h)
      refine Gate.names .sampledOut (hsampling.mp hb) ?_
      intro g hg
      cases g with
      | disabled => exact hdisabled
      | _ => exact absurd hg (by decide)
    · have hnotOut := fun hx => hb (hsampling.mpr hx)
      have hsampled : t ∈ s.sampled config := by
        refine (mem_sampled hs).mpr ⟨hactive, fun hmode => ?_⟩
        by_contra hno
        exact hnotOut ⟨hmode, hno⟩
      obtain ⟨other, hother, h⟩ := bind_ok h
      have hsharding : other.isSome = true ↔ Gate.Excludes config inputs s t c .otherShard :=
        otherShard_iff hs hsampled hother
      cases other with
      | some shard =>
        obtain ⟨rfl, -⟩ := Prod.mk.inj (Except.ok.inj h)
        refine Gate.names .otherShard (hsharding.mp rfl) ?_
        intro g hg
        cases g with
        | disabled => exact hdisabled
        | sampledOut => exact hnotOut
        | _ => exact absurd hg (by decide)
      | none =>
        have hnotOther := fun hx => Bool.false_ne_true (hsharding.mpr hx)
        refine cadenceOutcome_names hs ((mem_inShard hs).mpr ⟨hsampled, fun hmode => ?_⟩) hc ?_ h
        · by_contra hno
          exact hnotOther ⟨hmode, hno⟩
        · intro g hg
          cases g with
          | disabled => exact hdisabled
          | sampledOut => exact hnotOut
          | otherShard => exact hnotOther
          | _ => exact absurd hg (by decide)

theorem due_iff (ht : t ∈ s.inShard config) (hc : c ∈ config.toolCadences) :
    c.tool ∈ dueTools s.cadence t.unitId ↔ ¬ Gate.Excludes config inputs s t c .notApplicable ∧
      ¬ Gate.Excludes config inputs s t c .notDue := by
  obtain ⟨d, hd, rfl, htool, hdecision⟩ := cadence_decision hs ht hc
  obtain ⟨-, -, hcases⟩ := cadenceDecision_ok hdecision
  rw [mem_dueTools]
  constructor
  · rintro ⟨d', hd', hunit, hdue, htool'⟩
    obtain rfl := cadence_unique hs hd' hd hunit (htool'.trans htool.symm)
    rcases hcases with ⟨hdisposition, -⟩ | ⟨hdisposition, -⟩ | ⟨-, happ, hnotDue⟩
    · rw [hdue] at hdisposition
      cases hdisposition
    · rw [hdue] at hdisposition
      cases hdisposition
    · exact ⟨happ, hnotDue⟩
  · rintro ⟨happ, hnotDue⟩
    rcases hcases with ⟨-, h⟩ | ⟨-, -, h⟩ | ⟨hdue, -⟩
    · exact absurd h happ
    · exact absurd h hnotDue
    · exact ⟨d, hd, rfl, hdue, htool⟩

/-- No gate excludes a pair exactly if its unit is admitted and its tool due. -/
theorem passes_iff (ht : t ∈ s.targets) (hc : c ∈ config.toolCadences) :
    (∀ g : Gate, ¬ g.Excludes config inputs s t c) ↔
      t ∈ Admission.targets s.resources ∧ c.tool ∈ dueTools s.cadence t.unitId := by
  constructor
  · intro h
    have hactive : t ∈ s.active := mem_active.mpr ⟨ht, by simpa [Gate.Excludes] using h .disabled⟩
    have hsampled : t ∈ s.sampled config := by
      refine (mem_sampled hs).mpr ⟨hactive, fun hmode => ?_⟩
      by_contra hno
      exact h .sampledOut ⟨hmode, hno⟩
    have hshard : t ∈ s.inShard config := by
      refine (mem_inShard hs).mpr ⟨hsampled, fun hmode => ?_⟩
      by_contra hno
      exact h .otherShard ⟨hmode, hno⟩
    have htools := (due_iff hs hshard hc).mpr ⟨h .notApplicable, h .notDue⟩
    refine ⟨?_, htools⟩
    obtain ⟨d, hd, hunit, hdue, -⟩ := mem_dueTools.mp htools
    have htarget := eq_of_unitId hs (inShard_active hs (cadence_target hs hd)) hactive hunit
    obtain ⟨e, he, heq⟩ := List.mem_map.mp
      ((mem_execution hs).mpr ((mem_due hs).mpr ⟨d, hd, hdue, htarget⟩))
    have headmitted : e.admitted = true := by
      by_contra hno
      exact h .budget (Or.inl ⟨e, he, heq, Bool.eq_false_of_not_eq_true hno⟩)
    obtain ⟨r, hr, hrt⟩ := List.mem_map.mp
      ((mem_resources hs).mpr (Admission.mem_targets.mpr ⟨e, he, heq, headmitted⟩))
    refine Admission.mem_targets.mpr ⟨r, hr, hrt, ?_⟩
    by_contra hno
    exact h .budget (Or.inr ⟨r, hr, hrt, Bool.eq_false_of_not_eq_true hno⟩)
  · rintro ⟨hadmitted, htools⟩ g
    obtain ⟨hexecution, -, hshard⟩ := due_of_admitted hs hadmitted
    obtain ⟨hsampled, hindex⟩ := (mem_inShard hs).mp hshard
    obtain ⟨hactive, hsample⟩ := (mem_sampled hs).mp hsampled
    obtain ⟨happ, hnotDue⟩ := (due_iff hs hshard hc).mp htools
    cases g with
    | disabled => simp [Gate.Excludes, (mem_active.mp hactive).2]
    | sampledOut => exact fun h => h.2 (hsample h.1)
    | otherShard => exact fun h => h.2 (hindex h.1)
    | notApplicable => exact happ
    | notDue => exact hnotDue
    | budget =>
      obtain ⟨e, he, heq, hea⟩ := Admission.mem_targets.mp hexecution
      obtain ⟨r, hr, hrt, hra⟩ := Admission.mem_targets.mp hadmitted
      exact not_budget hs he heq hea hr hrt hra

omit hs in
/-- Outcomes name gates one to one. -/
theorem Gate.names_admitted {excludes : Gate → Prop} {o : ManifestOutcome}
    (h : Gate.Names excludes o) : o = .admitted ↔ ∀ g, ¬ excludes g := by
  rcases h with ⟨rfl, hall⟩ | ⟨g, rfl, hg, -⟩
  · simpa using hall
  · constructor
    · intro ho
      cases g <;> cases ho
    · intro hall
      exact absurd hg (hall g)

end Stages

/-! ### Items and sessions -/

section Manifest

variable {catalog : WorkloadCatalog} {config : CampaignPlannerConfig} {inputs : CampaignInputs}

theorem manifestItems_ok {targets : List CatalogWorkUnit} {tables : Tables}
    {items : List CampaignManifestItem} (h : manifestItems targets config tables = .ok items) :
    (items.map fun i => (i.target, i.tool)) =
        targets.flatMap (fun t => config.toolCadences.map fun c => (t, c.tool)) ∧
      ∀ i ∈ items, i.target ∈ targets ∧ ∃ c ∈ config.toolCadences, i.tool = c.tool ∧
        tables.outcome config i.target c.tool = .ok (i.outcome, i.reasons) := by
  obtain ⟨lists, hlists, h⟩ := bind_ok h
  cases h
  have hitem : ∀ {t : CatalogWorkUnit} {c : ToolCadence} {i : CampaignManifestItem},
      tables.item config t c = .ok i →
        i.target = t ∧ i.tool = c.tool ∧ tables.outcome config t c.tool = .ok (i.outcome, i.reasons) := by
    intro t c i hi
    obtain ⟨⟨o, reasons⟩, ho, hi⟩ := bind_ok hi
    cases hi
    exact ⟨rfl, rfl, ho⟩
  constructor
  · rw [List.map_flatten, List.flatMap]
    congr 1
    have hpairs : List.Forall₂ (· = ·) (lists.map fun l => l.map fun i => (i.target, i.tool))
        (targets.map fun t => config.toolCadences.map fun c => (t, c.tool)) := by
      rw [List.forall₂_map_left_iff, List.forall₂_map_right_iff]
      refine ((mapM_ok.mp hlists).imp ?_).flip
      intro t l hl
      have hrow : List.Forall₂ (· = ·) (l.map fun i => (i.target, i.tool))
          (config.toolCadences.map fun c => (t, c.tool)) := by
        rw [List.forall₂_map_left_iff, List.forall₂_map_right_iff]
        refine ((mapM_ok.mp hl).imp ?_).flip
        intro c i hi
        obtain ⟨rfl, htool, -⟩ := hitem hi
        change (i.target, i.tool) = (i.target, c.tool)
        rw [htool]
      rwa [List.forall₂_eq_eq_eq] at hrow
    rwa [List.forall₂_eq_eq_eq] at hpairs
  · intro i hi
    obtain ⟨l, hl, hi⟩ := List.mem_flatten.mp hi
    obtain ⟨t, ht, hl⟩ := forall₂_mem_right (mapM_ok.mp hlists) hl
    obtain ⟨c, hc, hi⟩ := forall₂_mem_right (mapM_ok.mp hl) hi
    obtain ⟨rfl, htool, ho⟩ := hitem hi
    exact ⟨ht, c, hc, htool, ho⟩

theorem sessions_ok {units : List CatalogWorkUnit} {cadence : List CadenceDecision}
    {sessions : List PlannedCampaignSession}
    (h : units.mapM (fun t => plannedSession t (dueTools cadence t.unitId)) = .ok sessions) :
    sessions.map PlannedCampaignSession.target = units ∧ ∀ session ∈ sessions, ∀ tool,
      session.carries tool = true ↔ tool ∈ dueTools cadence session.target.unitId := by
  have hsessions := mapM_ok.mp h
  constructor
  · have htargets : List.Forall₂ (· = ·) units (sessions.map PlannedCampaignSession.target) :=
      List.forall₂_map_right_iff.mpr (hsessions.imp fun t _ ht => (plannedSession_ok ht).1.symm)
    rw [List.forall₂_eq_eq_eq] at htargets
    exact htargets.symm
  · intro session hsession tool
    obtain ⟨t, -, ht⟩ := forall₂_mem_right hsessions hsession
    obtain ⟨rfl, hcarries⟩ := plannedSession_ok ht
    exact hcarries tool

theorem session_target {s : Stages} (hs : s.Of catalog config inputs) {t : CatalogWorkUnit}
    (ht : t ∈ Admission.targets s.resources) : t ∈ s.active :=
  inShard_active hs (due_of_admitted hs ht).2.2

theorem item_admitted_iff {s : Stages} (hs : s.Of catalog config inputs)
    {items : List CampaignManifestItem} (hitems : manifestItems s.targets config s.tables = .ok items)
    {i : CampaignManifestItem} (hi : i ∈ items) : i.outcome = .admitted ↔
      i.target ∈ Admission.targets s.resources ∧ i.tool ∈ dueTools s.cadence i.target.unitId := by
  obtain ⟨ht, c, hc, htool, ho⟩ := (manifestItems_ok hitems).2 i hi
  rw [Gate.names_admitted (outcome_names hs ht hc ho), passes_iff hs ht hc, htool]

theorem countP_unit {sessions : List PlannedCampaignSession}
    (hnodup : ((sessions.map PlannedCampaignSession.target).map CatalogWorkUnit.unitId).Nodup)
    (p : PlannedCampaignSession → Bool) (unitId : String) :
    (sessions.countP fun x => x.target.unitId = unitId && p x) = 1 ↔
      ∃ x ∈ sessions, x.target.unitId = unitId ∧ p x = true := by
  induction sessions with
  | nil => simp
  | cons x sessions ih =>
    simp only [List.map_cons, List.nodup_cons] at hnodup
    rw [List.countP_cons, List.exists_mem_cons_iff]
    have hrest : x.target.unitId = unitId →
        (sessions.countP fun y => y.target.unitId = unitId && p y) = 0 := by
      rintro rfl
      rw [List.countP_eq_zero]
      intro y hy
      simp only [Bool.and_eq_true, decide_eq_true_eq, not_and]
      intro hunit
      exact absurd (List.mem_map.mpr ⟨_, List.mem_map_of_mem hy, hunit⟩) hnodup.1
    by_cases hunit : x.target.unitId = unitId
    · have hzero := hrest hunit
      have hnone : ¬ ∃ y ∈ sessions, y.target.unitId = unitId ∧ p y = true := by
        rintro ⟨y, hy, hyunit, -⟩
        exact hnodup.1 (List.mem_map.mpr ⟨_, List.mem_map_of_mem hy, hyunit.trans hunit.symm⟩)
      rw [hzero]
      by_cases hp : p x = true <;> simp [hunit, hp, hnone]
    · rw [← ih hnodup.2]
      simp [hunit]

theorem not_budget_of_unlimited {s : Stages} (hs : s.Of catalog config inputs)
    (hexecution : config.executionBudget = {}) (hresources : config.resourceBudget = {})
    {t : CatalogWorkUnit} {c : ToolCadence} : ¬ Gate.Excludes config inputs s t c .budget := by
  rintro (⟨d, hd, -, hno⟩ | ⟨d, hd, -, hno⟩)
  · have h := hs.execution
    rw [hexecution] at h
    obtain ⟨_, -, h⟩ := bind_ok h
    rw [← Except.ok.inj h] at hd
    have hall := Admission.admitted_of_unlimited (fun u x => by simp [budgetConstraints]) hd
    rw [hno] at hall
    cases hall
  · have h := hs.resources
    rw [hresources] at h
    obtain ⟨_, -, h⟩ := bind_ok h
    obtain ⟨_, -, h⟩ := bind_ok h
    obtain ⟨_, -, h⟩ := bind_ok h
    rw [← Except.ok.inj h] at hd
    have hall := Admission.admitted_of_unlimited (fun u x => by simp [resourceConstraints]) hd
    rw [hno] at hall
    cases hall

/-! ### Shards -/

def CampaignPlannerConfig.withShard (config : CampaignPlannerConfig) (k : Fin config.shardCount) :
    CampaignPlannerConfig :=
  { config with shardIndex := k, shard_lt := k.isLt }

/-- In the campaign of one shard, an item that every other gate lets through is admitted
exactly if the unit belongs to the shard. -/
theorem admitted_iff_shard {s : Stages} (hs : s.Of catalog config inputs)
    (hmode : config.mode = .scheduled) (hexecution : config.executionBudget = {})
    (hresources : config.resourceBudget = {}) {t : CatalogWorkUnit}
    (ht : t ∈ sampledTargets s.sample) {c : ToolCadence} (hc : c ∈ config.toolCadences)
    (happ : ¬ NotApplicable t c.tool)
    (hdue : ¬ NotDue config.mode config.asOf inputs.lastCompleted t c) {o : ManifestOutcome}
    {reasons : List String} (ho : s.tables.outcome config t c.tool = .ok (o, reasons)) :
    o = .admitted ↔
      deterministicShard t.unitId config.shardCount config.shardSeed = .ok config.shardIndex := by
  have hactive := mem_active.mp (mem_sampledTargets hs ht)
  rw [Gate.names_admitted (outcome_names hs hactive.1 hc ho)]
  constructor
  · intro h
    by_contra hno
    exact h .otherShard ⟨hmode, hno⟩
  · intro h g
    cases g with
    | disabled => simp [Gate.Excludes, hactive.2]
    | sampledOut => exact fun hx => hx.2 ht
    | otherShard => exact fun hx => hx.2 h
    | notApplicable => exact happ
    | notDue => exact hdue
    | budget => exact not_budget_of_unlimited hs hexecution hresources

/-! ### The manifest -/

/-- What a manifest says about the campaign whose stages are `s`. -/
structure CampaignManifest.Accounts (manifest : CampaignManifest) (catalog : WorkloadCatalog)
    (config : CampaignPlannerConfig) (inputs : CampaignInputs) (s : Stages) : Prop where
  /-- One item for each target of the catalog and each tool. -/
  items : (manifest.items.map fun i => (i.target, i.tool)) =
    s.targets.flatMap fun t => config.toolCadences.map fun c => (t, c.tool)
  once : (manifest.items.map fun i => (i.target, i.tool)).Nodup
  /-- An admitted item has one session, and no other item has any. -/
  admitted : ∀ i ∈ manifest.items, i.outcome = .admitted ↔
    (manifest.sessions.countP fun x => x.target.unitId = i.target.unitId && x.carries i.tool) = 1
  sessions : ∀ x ∈ manifest.sessions, ∀ tool, x.carries tool = true →
    (∃ i ∈ manifest.items, i.target = x.target ∧ i.tool = tool) ∧
      ∀ i ∈ manifest.items, i.target.unitId = x.target.unitId → i.tool = tool →
        i.outcome = .admitted
  /-- Every outcome names the first gate that excluded the pair. -/
  gates : ∀ i ∈ manifest.items, ∃ c ∈ config.toolCadences, i.tool = c.tool ∧
    Gate.Names (Gate.Excludes config inputs s i.target c) i.outcome
  /-- The sessions stay within every budget. -/
  runs : ∀ n, config.executionBudget.maxRuns = some n → manifest.sessions.length ≤ n
  gpuSeconds : ∀ n, config.executionBudget.maxGpuSeconds = some n →
    (manifest.sessions.map fun x => x.target.estimatedGpuSeconds).sum ≤ n
  reasoningTokens : ∀ n, config.resourceBudget.maxReasoningTokens = some n →
    (inputs.initialUsage.getD {}).reasoningTokens ≤ n →
    (inputs.initialUsage.getD {}).reasoningTokens + (manifest.sessions.map fun x =>
      (estimateOf inputs.estimates x.target).reasoningTokens).sum ≤ n
  artifactBytes : ∀ n, config.resourceBudget.maxArtifactBytes = some n →
    (inputs.initialUsage.getD {}).artifactBytes ≤ n →
    (inputs.initialUsage.getD {}).artifactBytes + (manifest.sessions.map fun x =>
      (estimateOf inputs.estimates x.target).artifactBytes).sum ≤ n
  submissions : ∀ rate recent, config.resourceBudget.sandcastleRate = some rate →
    recentSandcastleCount config.resourceBudget.sandcastleRate config.asOf inputs.submittedAt =
      .ok recent → recent ≤ rate.maxSubmissions →
    recent + (manifest.sessions.map fun x =>
      (estimateOf inputs.estimates x.target).sandcastleSubmissions).sum ≤ rate.maxSubmissions
  /-- A due pair is admitted in one of the shards. -/
  shards : config.mode = .scheduled → config.executionBudget = {} → config.resourceBudget = {} →
    ∀ manifests : Fin config.shardCount → CampaignManifest,
      (∀ k, inputs.plan catalog (config.withShard k) = .ok (manifests k)) →
      ∀ t ∈ sampledTargets s.sample, ∀ c ∈ config.toolCadences, ¬ NotApplicable t c.tool →
        ¬ NotDue config.mode config.asOf inputs.lastCompleted t c →
        ∃! k, ∃ i ∈ (manifests k).items, i.target = t ∧ i.tool = c.tool ∧ i.outcome = .admitted

/-- Over all shards, a due pair is admitted once. -/
theorem admitted_in_one_shard {s : Stages} (hs : s.Of catalog config inputs)
    (hmode : config.mode = .scheduled) (hexecution : config.executionBudget = {})
    (hresources : config.resourceBudget = {}) {manifests : Fin config.shardCount → CampaignManifest}
    (hplans : ∀ k, inputs.plan catalog (config.withShard k) = .ok (manifests k))
    {t : CatalogWorkUnit} (ht : t ∈ sampledTargets s.sample) {c : ToolCadence}
    (hc : c ∈ config.toolCadences) (happ : ¬ NotApplicable t c.tool)
    (hdue : ¬ NotDue config.mode config.asOf inputs.lastCompleted t c) :
    ∃! k, ∃ i ∈ (manifests k).items, i.target = t ∧ i.tool = c.tool ∧ i.outcome = .admitted := by
  have hsampled : t ∈ s.sampled config :=
    (mem_sampled hs).mpr ⟨mem_sampledTargets hs ht, fun _ => ht⟩
  obtain ⟨-, hperm, hshard⟩ := assignCatalogShards_ok hs.assigned
  obtain ⟨a, ha, rfl⟩ := List.mem_map.mp (hperm.mem_iff.mpr hsampled)
  have hindex := hshard a ha
  have hadmitted : ∀ k, (∃ i ∈ (manifests k).items,
      i.target = a.1 ∧ i.tool = c.tool ∧ i.outcome = .admitted) ↔ a.2 = k := by
    intro k
    obtain ⟨s', hs', hitems, -⟩ := planCampaign_stages (hplans k)
    -- the expansion and the sample do not depend on the shard
    have htargets : s'.targets = s.targets := Except.ok.inj (hs'.expanded.symm.trans hs.expanded)
    have hsample : s'.sample = s.sample := by
      have h := hs'.sample
      rw [Stages.active, htargets] at h
      exact Except.ok.inj (h.symm.trans hs.sample)
    obtain ⟨hpairs, hall⟩ := manifestItems_ok hitems
    have hiff : ∀ i ∈ (manifests k).items, i.target = a.1 → i.tool = c.tool →
        (i.outcome = .admitted ↔ a.2 = k) := by
      intro i hi htarget htool
      obtain ⟨-, c', -, htool', ho⟩ := hall i hi
      rw [htarget, ← htool', htool] at ho
      have h := admitted_iff_shard hs' hmode hexecution hresources (hsample ▸ ht) hc happ hdue ho
      rw [h]
      change deterministicShard a.1.unitId config.shardCount config.shardSeed = .ok k.val ↔ _
      rw [hindex]
      exact ⟨fun h => Except.ok.inj h, fun h => congrArg Except.ok h⟩
    constructor
    · rintro ⟨i, hi, htarget, htool, ho⟩
      exact (hiff i hi htarget htool).mp ho
    · intro hk
      have hmem : (a.1, c.tool) ∈ (manifests k).items.map fun i => (i.target, i.tool) := by
        rw [hpairs, htargets]
        exact List.mem_flatMap.mpr ⟨a.1, (mem_active.mp (mem_sampledTargets hs ht)).1,
          List.mem_map_of_mem hc⟩
      obtain ⟨i, hi, hpair⟩ := List.mem_map.mp hmem
      obtain ⟨htarget, htool⟩ := Prod.mk.inj hpair
      exact ⟨i, hi, htarget, htool, (hiff i hi htarget htool).mpr hk⟩
  refine ⟨⟨a.2, deterministicShard_lt hindex⟩, (hadmitted _).mpr rfl, ?_⟩
  intro k hk
  exact Fin.ext ((hadmitted k).mp hk).symm

/-- Whatever campaign is planned, its manifest accounts for it. -/
theorem planCampaign_accounts {manifest : CampaignManifest}
    (h : inputs.plan catalog config = .ok manifest) :
    ∃ s : Stages, s.Of catalog config inputs ∧ manifest.Accounts catalog config inputs s := by
  obtain ⟨s, hs, hitems, hsessions, hnodup⟩ := planCampaign_stages h
  obtain ⟨hpairs, hall⟩ := manifestItems_ok hitems
  obtain ⟨hunits, hcarries⟩ := sessions_ok hsessions
  obtain ⟨-, -, hruns, hgpu⟩ := applyCampaignBudget_ok hs.execution
  obtain ⟨-, htokens, hbytes, hrate⟩ := applyResourceBudget_ok hs.resources
  obtain ⟨-, htools, -, hdecisions⟩ := planToolCadence_ok hs.cadence
  have hsub : (Admission.targets s.resources).Sublist (Admission.targets s.execution) := by
    have hmap := List.filter_sublist (p := Admission.admitted) (l := s.resources)
    have h := hmap.map Admission.target
    rwa [(applyResourceBudget_ok hs.resources).1] at h
  have hadmitted : ∀ x ∈ manifest.sessions, x.target ∈ Admission.targets s.resources :=
    fun x hx => hunits ▸ List.mem_map_of_mem hx
  have hsums : ∀ f : CatalogWorkUnit → ℕ, (manifest.sessions.map fun x => f x.target) =
      (Admission.targets s.resources).map f := by
    intro f
    rw [← hunits, List.map_map]
    rfl
  -- units with one id are both enabled, and enabled units differ in their ids
  have hsame : ∀ i ∈ manifest.items, ∀ x ∈ manifest.sessions,
      i.target.unitId = x.target.unitId → i.target = x.target := by
    intro i hi x hx hunit
    have hactive := session_target hs (hadmitted x hx)
    obtain ⟨htargets, henabled⟩ := mem_active.mp hactive
    have htarget := (hall i hi).1
    have henabled' := (enabled_eq_of_unitId hs.expanded htarget htargets hunit).trans henabled
    exact eq_of_unitId hs (mem_active.mpr ⟨htarget, henabled'⟩) hactive hunit
  refine ⟨s, hs, ?_⟩
  constructor
  case items => exact hpairs
  case once =>
    rw [hpairs]
    exact pairs_nodup (expandWorkloadCatalog_nodup hs.expanded) htools
  case admitted =>
    intro i hi
    rw [item_admitted_iff hs hitems hi, countP_unit hnodup (fun x => x.carries i.tool)]
    constructor
    · rintro ⟨hmem, hdue⟩
      rw [← hunits] at hmem
      obtain ⟨x, hx, htarget⟩ := List.mem_map.mp hmem
      exact ⟨x, hx, by rw [htarget], (hcarries x hx i.tool).mpr (htarget ▸ hdue)⟩
    · rintro ⟨x, hx, hunit, hcarry⟩
      rw [hsame i hi x hx hunit.symm]
      exact ⟨hadmitted x hx, (hcarries x hx i.tool).mp hcarry⟩
  case sessions =>
    intro x hx tool hcarry
    have hdue := (hcarries x hx tool).mp hcarry
    obtain ⟨d, hd, -, -, rfl⟩ := mem_dueTools.mp hdue
    obtain ⟨t, -, c, hc, hdecision⟩ := hdecisions d hd
    have htool := (cadenceDecision_ok hdecision).2.1
    have hactive := session_target hs (hadmitted x hx)
    constructor
    · have hmem : (x.target, d.tool) ∈ manifest.items.map fun i => (i.target, i.tool) := by
        rw [hpairs, htool]
        exact List.mem_flatMap.mpr ⟨x.target, (mem_active.mp hactive).1, List.mem_map_of_mem hc⟩
      obtain ⟨i, hi, hpair⟩ := List.mem_map.mp hmem
      obtain ⟨htarget, hitool⟩ := Prod.mk.inj hpair
      exact ⟨i, hi, htarget, hitool⟩
    · intro i hi hunit hitool
      rw [item_admitted_iff hs hitems hi, hsame i hi x hx hunit, hitool]
      exact ⟨hadmitted x hx, hdue⟩
  case gates =>
    intro i hi
    obtain ⟨ht, c, hc, htool, ho⟩ := hall i hi
    exact ⟨c, hc, htool, outcome_names hs ht hc ho⟩
  case runs =>
    intro n hn
    have hlength := congrArg List.length hunits
    rw [List.length_map] at hlength
    rw [hlength]
    exact hsub.length_le.trans (hruns n hn)
  case gpuSeconds =>
    intro n hn
    have hsum := (hsub.map CatalogWorkUnit.estimatedGpuSeconds).sum_le_sum fun _ _ => Nat.zero_le _
    rw [hsums CatalogWorkUnit.estimatedGpuSeconds]
    exact hsum.trans (hgpu n hn)
  case reasoningTokens =>
    intro n hn hstart
    rw [hsums fun t => (estimateOf inputs.estimates t).reasoningTokens]
    exact htokens n hn hstart
  case artifactBytes =>
    intro n hn hstart
    rw [hsums fun t => (estimateOf inputs.estimates t).artifactBytes]
    exact hbytes n hn hstart
  case submissions =>
    intro rate recent hrate' hrecent hstart
    rw [hsums fun t => (estimateOf inputs.estimates t).sandcastleSubmissions]
    exact hrate rate recent hrate' hrecent hstart
  case shards =>
    intro hmode hexecution hresources manifests hplans t ht c hc happ hdue
    exact admitted_in_one_shard hs hmode hexecution hresources hplans ht hc happ hdue

end Manifest

/-! ### A small campaign -/

def smallEntry : WorkloadCatalogEntry where
  entryId := "a"
  adapter := .tlxPytest
  selectors := ["t"]
  architectures := ["sm_90"]
  sourceRevision := "r"
  scopeId := "s"
  selectors_ne := List.cons_ne_nil _ _
  selectors_nodup := List.nodup_singleton _
  architectures_ne := List.cons_ne_nil _ _
  architectures_nodup := List.nodup_singleton _

def smallCatalog : WorkloadCatalog where
  catalogRevision := "c"
  entries := [smallEntry]
  entryIds_nodup := List.nodup_singleton _

def smallConfig : CampaignPlannerConfig where
  mode := .scheduled
  asOf := ⟨0, some ⟨0, fun _ => 0⟩⟩
  shardIndex := 0
  shardCount := 1
  shardSeed := "s"
  toolCadences := [⟨.memcheck, 1⟩, ⟨.randomDelayStress, 7⟩]
  executionBudget := { maxRuns := some 1 }
  asOf_aware := rfl
  shard_lt := Nat.zero_lt_one

def smallInputs : CampaignInputs where
  estimates := ⟨[(unitIdOf smallEntry (pytestArgv smallEntry "t") "sm_90" 0, ⟨1, 1, 1⟩)],
    List.nodup_singleton _⟩
  lastCompleted := Dict.empty
  submittedAt := []
  initialUsage := none

theorem blank_unitIdOf {entry : WorkloadCatalogEntry} {argv : List String} {arch : String} {i : ℕ} :
    blank (unitIdOf entry argv arch i) = false := by
  have hdash : Amdgcn.isSpace '-' = false := rfl
  rw [blank, unitIdOf, String.toList_ofList, List.all_append, List.all_cons, hdash, Bool.false_and,
    Bool.and_false]

/-! The stages of a campaign with one unit. -/

section Alone

variable {t : CatalogWorkUnit}

theorem duplicateUnits_singleton : duplicateUnits [t] = false := by simp [duplicateUnits]

theorem planCatalogSampling_alone (hrevision : t.catalogRevision = "c") (hentry : t.entryId = "a")
    (hlimit : t.sampling.maxSelected = none) :
    planCatalogSampling [t] "c" = .ok [samplingDecision [t.selectorIndex] none t] := by
  have hranks : selectorRanks [t] = .ok [t.selectorIndex] := by
    simp [selectorRanks, representatives, refuseIf, Dict.upsert, Dict.upsertEntries, Dict.get?,
      Dict.lookup, Dict.empty, Dict.values, sortOn]
  have hsample : sampleEntry [t] = .ok [samplingDecision [t.selectorIndex] none t] := by
    have hdedup : [t.sampling].dedup = [t.sampling] := rfl
    have hsorted : byUnitId [t] = [t] := rfl
    simp [sampleEntry, refuseIf, hranks, hdedup, hsorted, hlimit]
  have hc : blank "c" = false := rfl
  simp [planCatalogSampling, refuseIf, hc, hrevision, hentry, duplicateUnits_singleton, Dict.collect,
    Dict.upsert, Dict.upsertEntries, Dict.empty, Dict.keys, Dict.get?, Dict.lookup, sortOn, hsample]

theorem assignCatalogShards_alone (h : blank t.unitId = false) :
    assignCatalogShards [t] 1 "s" = .ok [(t, 0)] := by
  have hshard : deterministicShard t.unitId 1 "s" = .ok 0 := by
    have hseed : blank "s" = false := rfl
    simp [deterministicShard, refuseIf, h, hseed, Nat.mod_one]
  have hsorted : byUnitId [t] = [t] := rfl
  simp [assignCatalogShards, refuseIf, duplicateUnits_singleton, hsorted, hshard]

/-- The tools of the small campaign, on a unit that never ran. -/
def aloneCadence (t : CatalogWorkUnit) : List CadenceDecision :=
  [⟨t, .memcheck, .due, some (max t.cadenceDays 1), none, "tool has no prior successful run"⟩,
    ⟨t, .randomDelayStress, .notApplicable, none, none, "random-delay stress requires an oracle"⟩]

theorem planToolCadence_alone (horacle : t.unit.oracle = none) :
    planToolCadence [t] smallConfig.toolCadences .scheduled smallConfig.asOf Dict.empty =
      .ok (aloneCadence t) := by
  have haware : smallConfig.asOf.aware = true := rfl
  have hnodup : decide (smallConfig.toolCadences.map ToolCadence.tool).Nodup = true := rfl
  have hsorted : byUnitId [t] = [t] := rfl
  simp only [planToolCadence, refuseIf, haware, hnodup, hsorted, duplicateUnits_singleton]
  simp [smallConfig, cadenceDecision, cadenceDisposition, aloneCadence, refuseIf, horacle, Dict.get?, Dict.lookup,
    Dict.empty]

theorem applyCampaignBudget_alone :
    applyCampaignBudget [t] smallConfig.executionBudget = .ok [⟨t, [], useExecution {} t⟩] := by
  simp [applyCampaignBudget, refuseIf, duplicateUnits_singleton, Admission.each, budgetConstraints,
    smallConfig]

theorem applyResourceBudget_alone {estimates : Estimates} {e : CampaignResourceEstimate}
    (h : estimates.get? t.unitId = some e) :
    applyResourceBudget [t] estimates {} smallConfig.asOf [] none =
      .ok [⟨t, [], useResources estimates ⟨{}, 0⟩ t⟩] := by
  simp [applyResourceBudget, refuseIf, duplicateUnits_singleton, h, recentSandcastleCount,
    Admission.each, resourceConstraints]

theorem manifestItems_alone (henabled : t.enabled = true) (resources : ResourceTotal) :
    ∃ items, manifestItems [t] smallConfig (tablesOf [t] [samplingDecision [t.selectorIndex] none t]
      [(t, 0)] (aloneCadence t) [⟨t, [], useExecution {} t⟩] [⟨t, [], resources⟩]) = .ok items := by
  simp [manifestItems, Tables.item, Tables.outcome, Tables.sampledOut, Tables.otherShard,
    Tables.cadenceOutcome, Tables.budgetOutcome, Admission.admitted, tablesOf, keyed, dictOf,
    Dict.insert, Dict.upsert, Dict.upsertEntries, Dict.empty, Dict.get?, Dict.lookup,
    samplingDecision, smallConfig, henabled, aloneCadence]

/-- A catalog with one unit, that never ran and has an estimate. -/
theorem plan_alone {catalog : WorkloadCatalog} {inputs : CampaignInputs} {e : CampaignResourceEstimate}
    (hexpanded : expandWorkloadCatalog catalog true = .ok [t]) (hcatalog : catalog.catalogRevision = "c")
    (hrevision : t.catalogRevision = "c") (hentry : t.entryId = "a")
    (hlimit : t.sampling.maxSelected = none) (horacle : t.unit.oracle = none)
    (henabled : t.enabled = true) (hblank : blank t.unitId = false)
    (hlast : inputs.lastCompleted = Dict.empty) (hsubmitted : inputs.submittedAt = [])
    (hinitial : inputs.initialUsage = none) (hestimate : inputs.estimates.get? t.unitId = some e) :
    ∃ manifest, inputs.plan catalog smallConfig = .ok manifest := by
  let s : Stages :=
    { targets := [t]
      sample := [samplingDecision [t.selectorIndex] none t]
      assignments := [(t, 0)]
      cadence := aloneCadence t
      execution := [⟨t, [], useExecution {} t⟩]
      resources := [⟨t, [], useResources inputs.estimates ⟨{}, 0⟩ t⟩] }
  have hactive : s.active = [t] := List.filter_cons_of_pos henabled
  have hs : s.Of catalog smallConfig inputs :=
    { expanded := hexpanded
      sample := by rw [hactive, hcatalog, planCatalogSampling_alone hrevision hentry hlimit]
      assigned := assignCatalogShards_alone hblank
      cadence := by
        rw [hlast]
        exact planToolCadence_alone horacle
      execution := applyCampaignBudget_alone
      resources := by
        rw [hsubmitted, hinitial]
        exact applyResourceBudget_alone hestimate }
  obtain ⟨items, hitems⟩ := manifestItems_alone henabled (useResources inputs.estimates ⟨{}, 0⟩ t)
  have hsessions : (Admission.targets s.resources).mapM
      (fun t => plannedSession t (dueTools s.cadence t.unitId)) = .ok [⟨t, ["memcheck"], false⟩] := by
    have htargets : Admission.targets s.resources = [t] := rfl
    have htools : dueTools s.cadence t.unitId = [.memcheck] := by simp [dueTools, s, aloneCadence]
    rw [htargets, List.mapM_cons, htools, List.mapM_nil]
    rfl
  refine ⟨_, planCampaign_of_stages hs hitems hsessions ?_ (Sha256.length_hash256HexString _)
    duplicateUnits_singleton⟩
  rw [hcatalog]
  rfl

end Alone

theorem plan_small : ∃ manifest, smallInputs.plan smallCatalog smallConfig = .ok manifest := by
  let t := catalogWorkUnit "c" smallEntry (pytestArgv smallEntry "t") "t" 0 "sm_90"
  have hestimate : smallInputs.estimates.get? t.unitId = some ⟨1, 1, 1⟩ := by
    change Dict.lookup t.unitId [(t.unitId, _)] = _
    rw [Dict.lookup, if_pos rfl]
  exact plan_alone (t := t) rfl rfl rfl rfl rfl rfl rfl blank_unitIdOf rfl rfl rfl hestimate

theorem planCampaign_accounts_small : ∃ manifest,
    smallInputs.plan smallCatalog smallConfig = .ok manifest ∧
      ∃ s : Stages, s.Of smallCatalog smallConfig smallInputs ∧
        manifest.Accounts smallCatalog smallConfig smallInputs s := by
  obtain ⟨manifest, h⟩ := plan_small
  exact ⟨manifest, h, planCampaign_accounts h⟩

end CuTracer.Service
