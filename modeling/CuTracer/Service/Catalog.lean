import CuTracer.Library.Fallible
import CuTracer.Library.JsonText
import CuTracer.Library.Sha256
import CuTracer.Service.Contracts
import Mathlib.Data.List.Enum

/-! Workload catalogs and their expansion into work units: one unit for each selector
and architecture of an entry. -/

namespace CuTracer.Service

inductive PlanError where
  /-- `ValueError`. -/
  | value (message : String) (args : List String)
  /-- `KeyError`. -/
  | key (name : String)
  /-- `OverflowError` of date arithmetic. -/
  | overflow

abbrev Planning := Except PlanError

/-- `if c: raise ValueError(message)`. -/
def refuseIf (c : Bool) (message : String) (args : List String) : Planning Unit :=
  if c then .error (.value message args) else .ok ()

/-! ### Catalogs -/

inductive CatalogAdapter where
  | tritonPytest | tlxPytest | tritonbench
  deriving DecidableEq

def CatalogAdapter.value : CatalogAdapter → String
  | .tritonPytest => "triton_pytest"
  | .tlxPytest => "tlx_pytest"
  | .tritonbench => "tritonbench"

structure CatalogSamplingPolicy where
  maxSelected : Option ℕ
  seed : String
  deriving DecidableEq

/-- `WorkloadCatalogEntry`, as its constructor accepts it. -/
structure WorkloadCatalogEntry where
  entryId : String
  adapter : CatalogAdapter
  selectors : List String
  architectures : List String
  sourceRevision : String
  scopeId : String
  cwd : String := ""
  extraArgs : List String := []
  env : List (String × String) := []
  oracle : Option OracleSpec := none
  kernel : Option KernelId := none
  kernelFilters : List String := []
  sampling : CatalogSamplingPolicy := ⟨none, "default"⟩
  cadenceDays : ℕ := 1
  estimatedGpuSeconds : ℕ := 900
  enabled : Bool := true
  selectors_ne : selectors ≠ []
  selectors_nodup : selectors.Nodup
  architectures_ne : architectures ≠ []
  architectures_nodup : architectures.Nodup

/-- `WorkloadCatalog`, as its constructor accepts it. -/
structure WorkloadCatalog where
  catalogRevision : String
  entries : List WorkloadCatalogEntry
  schemaVersion : ℕ := 1
  entryIds_nodup : (entries.map WorkloadCatalogEntry.entryId).Nodup

/-! ### Documents, with the keys in order -/

def stringsJson (items : List String) : Json := .arr (items.map .str)

def OracleSpec.toJson (oracle : OracleSpec) : Json :=
  .obj [("argv", stringsJson oracle.argv),
    ("not_interesting_exit_codes", .arr (oracle.notInterestingExitCodes.map .int)),
    ("oracle_id", .str oracle.oracleId)]

def KernelId.toJson (kernel : KernelId) : Json :=
  .obj ([("cubin_hash", .str kernel.cubinHash)] ++
    kernel.mangledName.toList.map (fun name => ("mangled_name", .str name)) ++
    [("name", .str kernel.name)])

def CatalogSamplingPolicy.toJson (sampling : CatalogSamplingPolicy) : Json :=
  .obj [("max_selected", (sampling.maxSelected.map fun n : ℕ => Json.int n).getD .null),
    ("seed", .str sampling.seed)]

def envJson (env : List (String × String)) : Json := .obj (env.map fun e => (e.1, .str e.2))

def WorkloadCatalogEntry.toJson (entry : WorkloadCatalogEntry) : Json :=
  .obj [("adapter", .str entry.adapter.value), ("architectures", stringsJson entry.architectures),
    ("cadence_days", .int entry.cadenceDays), ("cwd", .str entry.cwd),
    ("enabled", .bool entry.enabled), ("entry_id", .str entry.entryId),
    ("env", envJson entry.env), ("estimated_gpu_seconds", .int entry.estimatedGpuSeconds),
    ("extra_args", stringsJson entry.extraArgs),
    ("kernel", (entry.kernel.map KernelId.toJson).getD .null),
    ("kernel_filters", stringsJson entry.kernelFilters),
    ("oracle", (entry.oracle.map OracleSpec.toJson).getD .null),
    ("sampling", entry.sampling.toJson), ("scope_id", .str entry.scopeId),
    ("selectors", stringsJson entry.selectors), ("source_revision", .str entry.sourceRevision)]

def sha256Text (text : String) : String := Sha256.hash256HexString (utf8 text)

/-- `WorkloadCatalog.digest`. -/
def WorkloadCatalog.digest (catalog : WorkloadCatalog) : String :=
  sha256Text (Json.dump true (.obj [("catalog_revision", .str catalog.catalogRevision),
    ("entries", .arr (catalog.entries.map WorkloadCatalogEntry.toJson)),
    ("schema_version", .int catalog.schemaVersion)]))

/-! ### Work units -/

/-- `CatalogWorkUnit`: a work unit with the scheduling policy of its entry. -/
structure CatalogWorkUnit where
  catalogRevision : String
  entryId : String
  selectorIndex : ℕ
  kernelFilters : List String
  sampling : CatalogSamplingPolicy
  cadenceDays : ℕ
  estimatedGpuSeconds : ℕ
  unit : WorkUnit
  enabled : Bool
  deriving DecidableEq

def CatalogWorkUnit.unitId (target : CatalogWorkUnit) : String := target.unit.unitId

variable (entry : WorkloadCatalogEntry)

/-- `_unit_id`: the entry with the start of the digest of what identifies the unit. -/
def unitIdOf (argv : List String) (arch : String) (selectorIndex : ℕ) : String :=
  let identity : Json := .obj [("adapter", .str entry.adapter.value), ("arch", .str arch),
    ("argv", stringsJson argv), ("cwd", .str entry.cwd), ("entry_id", .str entry.entryId),
    ("env", envJson entry.env), ("kernel", (entry.kernel.map KernelId.toJson).getD .null),
    ("kernel_filters", stringsJson entry.kernelFilters),
    ("oracle", (entry.oracle.map OracleSpec.toJson).getD .null),
    ("selector_index", .int selectorIndex), ("source_revision", .str entry.sourceRevision)]
  String.ofList (entry.entryId.toList ++ '-' :: (sha256Text (identity.dump true)).toList.take 16)

def pytestArgv (selector : String) : List String :=
  ["python", "-m", "pytest", "-p", "no:xdist", selector] ++ entry.extraArgs

def tritonbenchForbiddenOptions : List String :=
  ["--bypass-fail", "--metrics", "--num-inputs", "--op", "--rep", "--repcnt", "--test-only",
    "--warmup"]

def optionName (argument : String) : String := String.ofList (argument.toList.takeWhile (· ≠ '='))

def tritonbenchArgv (selector : String) : Planning (List String) := do
  let forbidden := entry.extraArgs.filter fun a => tritonbenchForbiddenOptions.contains (optionName a)
  refuseIf (entry.enabled && !forbidden.isEmpty)
    "tritonbench catalog extra_args override guarded options: %s" forbidden
  .ok (["buck2", "--client-metadata", "id=cutracer_service", "run", "@mode/opt",
    "fbcode//pytorch/tritonbench:run", "--", "--op", selector, "--metrics", "accuracy",
    "--num-inputs", "1", "--test-only", "--isolate"] ++ entry.extraArgs)

def argvOf (selector : String) : Planning (List String) :=
  match entry.adapter with
  | .tritonPytest | .tlxPytest => .ok (pytestArgv entry selector)
  | .tritonbench => tritonbenchArgv entry selector

def catalogWorkUnit (revision : String) (entry : WorkloadCatalogEntry) (argv : List String)
    (selector : String) (selectorIndex : ℕ) (arch : String) : CatalogWorkUnit where
  catalogRevision := revision
  entryId := entry.entryId
  selectorIndex := selectorIndex
  kernelFilters := entry.kernelFilters
  sampling := entry.sampling
  cadenceDays := entry.cadenceDays
  estimatedGpuSeconds := entry.estimatedGpuSeconds
  unit :=
    { unitId := unitIdOf entry argv arch selectorIndex
      argv := argv
      workload := entry.adapter.value
      testId := selector
      cwd := entry.cwd
      arch := arch
      sourceRevision := entry.sourceRevision
      kernel := entry.kernel
      oracle := entry.oracle
      env := entry.env
      kernelFilters := entry.kernelFilters }
  enabled := entry.enabled

def expandSelector (revision : String) (entry : WorkloadCatalogEntry) (s : String × ℕ) :
    Planning (List CatalogWorkUnit) := do
  let argv ← argvOf entry s.1
  .ok (entry.architectures.map (catalogWorkUnit revision entry argv s.1 s.2))

/-- `expand`, of the adapter that the entry names. -/
def expandEntry (revision : String) (entry : WorkloadCatalogEntry) : Planning (List CatalogWorkUnit) := do
  let units ← entry.selectors.zipIdx.mapM (expandSelector revision entry)
  .ok units.flatten

/-- `expand_workload_catalog` with the default adapters. -/
def expandWorkloadCatalog (catalog : WorkloadCatalog) (includeDisabled : Bool) :
    Planning (List CatalogWorkUnit) := do
  let entries := catalog.entries.filter fun entry => entry.enabled || includeDisabled
  let units ← entries.mapM (expandEntry catalog.catalogRevision)
  .ok units.flatten

/-! ### What an expansion holds -/

/-- What tells the units of a catalog apart. -/
def CatalogWorkUnit.place (target : CatalogWorkUnit) : String × ℕ × String :=
  (target.entryId, target.selectorIndex, target.unit.arch)

/-- Results that are put together have the keys of what they come from. -/
theorem flatten_perm_of_forall₂ {α β κ : Type} {key : β → κ} {g : α → List κ} {xs : List α}
    {ys : List (List β)} (h : List.Forall₂ (fun x y => (y.map key).Perm (g x)) xs ys) :
    (ys.flatten.map key).Perm (xs.flatMap g) := by
  induction h with
  | nil => exact .nil
  | cons hxy _ ih =>
    rw [List.flatten_cons, List.map_append, List.flatMap_cons]
    exact hxy.append ih

theorem place_expandEntry {revision : String} {entry : WorkloadCatalogEntry}
    {units : List CatalogWorkUnit} (h : expandEntry revision entry = .ok units) :
    (units.map CatalogWorkUnit.place).Perm (entry.selectors.zipIdx.flatMap fun s =>
      entry.architectures.map fun arch => (entry.entryId, s.2, arch)) := by
  obtain ⟨unitLists, hunits, h⟩ := bind_ok h
  cases h
  apply flatten_perm_of_forall₂
  refine (mapM_ok.mp hunits).imp ?_
  intro s us hs
  obtain ⟨argv, -, hs⟩ := bind_ok hs
  cases hs
  rw [List.map_map]
  exact .refl _

theorem mem_expandEntry {revision : String} {entry : WorkloadCatalogEntry}
    {units : List CatalogWorkUnit} (h : expandEntry revision entry = .ok units)
    {target : CatalogWorkUnit} (ht : target ∈ units) :
    ∃ argv selector index arch, target = catalogWorkUnit revision entry argv selector index arch := by
  obtain ⟨unitLists, hunits, h⟩ := bind_ok h
  cases h
  obtain ⟨us, hus, ht⟩ := List.mem_flatten.mp ht
  obtain ⟨s, -, hs⟩ := forall₂_mem_right (mapM_ok.mp hunits) hus
  obtain ⟨argv, -, hs⟩ := bind_ok hs
  cases hs
  obtain ⟨arch, -, rfl⟩ := List.mem_map.mp ht
  exact ⟨argv, s.1, s.2, arch, rfl⟩

theorem mem_expandWorkloadCatalog {catalog : WorkloadCatalog} {includeDisabled : Bool}
    {targets : List CatalogWorkUnit} (h : expandWorkloadCatalog catalog includeDisabled = .ok targets)
    {target : CatalogWorkUnit} (ht : target ∈ targets) :
    ∃ entry ∈ catalog.entries, ∃ argv selector index arch,
      target = catalogWorkUnit catalog.catalogRevision entry argv selector index arch := by
  obtain ⟨unitLists, hunits, h⟩ := bind_ok h
  cases h
  obtain ⟨us, hus, ht⟩ := List.mem_flatten.mp ht
  obtain ⟨entry, hentry, he⟩ := forall₂_mem_right (mapM_ok.mp hunits) hus
  exact ⟨entry, List.mem_of_mem_filter hentry, mem_expandEntry he ht⟩

theorem expandWorkloadCatalog_nodup {catalog : WorkloadCatalog} {includeDisabled : Bool}
    {targets : List CatalogWorkUnit}
    (h : expandWorkloadCatalog catalog includeDisabled = .ok targets) : targets.Nodup := by
  obtain ⟨unitLists, hunits, h⟩ := bind_ok h
  cases h
  apply List.Nodup.of_map CatalogWorkUnit.place
  rw [(flatten_perm_of_forall₂ ((mapM_ok.mp hunits).imp fun entry us => place_expandEntry)).nodup_iff,
    List.nodup_flatMap]
  constructor
  · intro entry _
    rw [List.nodup_flatMap]
    constructor
    · intro s _
      exact entry.architectures_nodup.map fun a b hab => by simpa using hab
    · rw [List.pairwise_iff_getElem]
      intro i j hi hj hij
      simp only [List.disjoint_left, List.mem_map, List.getElem_zipIdx]
      rintro _ ⟨a, -, rfl⟩ ⟨b, -, hb⟩
      have : j = i := by simpa using congrArg (fun p => p.2.1) hb
      omega
  · have hids : (catalog.entries.filter fun entry => entry.enabled || includeDisabled).Pairwise
        fun a b => a.entryId ≠ b.entryId :=
      (List.pairwise_map.mp catalog.entryIds_nodup).filter _
    refine hids.imp ?_
    intro a b hab
    simp only [List.disjoint_left, List.mem_flatMap, List.mem_map]
    rintro _ ⟨s, -, x, -, rfl⟩ ⟨s', -, y, -, hy⟩
    exact hab (congrArg Prod.fst hy).symm

theorem length_shortDigest (text : String) : ((sha256Text text).toList.take 16).length = 16 := by
  rw [List.length_take, String.length_toList, sha256Text, Sha256.length_hash256HexString]
  rfl

theorem unitIdOf_inj {entry entry' : WorkloadCatalogEntry} {argv argv' : List String}
    {arch arch' : String} {i i' : ℕ} (h : unitIdOf entry argv arch i = unitIdOf entry' argv' arch' i') :
    entry.entryId = entry'.entryId := by
  have hlist := String.ofList_injective h
  obtain ⟨hid, -⟩ := List.append_inj' hlist
    (by rw [List.length_cons, List.length_cons, length_shortDigest, length_shortDigest])
  exact String.toList_injective hid

/-- Units with one id come from one entry. -/
theorem enabled_eq_of_unitId {catalog : WorkloadCatalog} {includeDisabled : Bool}
    {targets : List CatalogWorkUnit} (h : expandWorkloadCatalog catalog includeDisabled = .ok targets)
    {t t' : CatalogWorkUnit} (ht : t ∈ targets) (ht' : t' ∈ targets) (hid : t.unitId = t'.unitId) :
    t.enabled = t'.enabled := by
  obtain ⟨entry, hentry, argv, selector, i, arch, rfl⟩ := mem_expandWorkloadCatalog h ht
  obtain ⟨entry', hentry', argv', selector', i', arch', rfl⟩ := mem_expandWorkloadCatalog h ht'
  have heq : entry = entry' :=
    List.inj_on_of_nodup_map catalog.entryIds_nodup hentry hentry' (unitIdOf_inj hid)
  rw [heq]
  rfl

end CuTracer.Service
