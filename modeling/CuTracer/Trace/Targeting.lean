import CuTracer.Device.Selectors
import CuTracer.Library.Fallible
import CuTracer.Library.JsonTree
import CuTracer.Library.SortedSet
import CuTracer.Trace.Offsets
import Mathlib.Data.List.Sublists

/-! The targeting of a trace. The selectors of its spec go into the environment of the
target, the tool reads them there, filters records by them and reports them in the
metadata of a kernel, and the service compares the metadata with the spec. -/

namespace CuTracer.Trace

open Device (Env InstrCategory InstrumentType Launch Thread TraceSelection initConfigFromEnv)
open Json (field)
open Service (ExperimentKind ExperimentSpec KernelId TraceInstructionCategory TraceOptions TraceSelector
  blank)
open Stress (hex)

def uint64Max : ℤ := 0xFFFFFFFFFFFFFFFF

/-! ### Validation -/

/-- `_validate_trace_spec` and `_validate_trace_runtime_identity`. -/
def validateTraceRuntimeIdentity (spec : ExperimentSpec) : Except OffsetError TraceOptions :=
  if spec.kind ≠ .regTrace ∧ spec.kind ≠ .memValueTrace then
    .error (.valueError ("not a trace experiment: " ++ spec.kind.value))
  else
    match spec.trace with
    | none => .error (.valueError "trace options are required")
    | some options =>
      if options.mode ≠ spec.kind then
        .error (.valueError "trace options mode differs from the experiment kind")
      else if ¬(0 < options.traceSizeLimitMb ∧ options.traceSizeLimitMb ≤ 0xFFFFFFFF) then
        .error (.valueError "trace size limit must be in [1, UINT32_MAX] MB")
      else if ¬Service.pinned spec.unit.kernel then
        .error (.valueError "targeted trace requires a pinned WorkUnit kernel")
      else .ok options

def outside (value : Option ℤ) (last : ℤ) : Bool := value.any fun v => ¬(0 ≤ v ∧ v ≤ last)

def validateTraceSelectorScalars (selector : TraceSelector) : Except OffsetError Unit :=
  if outside selector.launchId uint64Max then
    .error (.valueError "trace launch_id must fit an unsigned 64-bit integer")
  else if outside selector.warpId 31 then .error (.valueError "trace warp_id must be in [0, 31]")
  else if outside selector.warpgroupId 7 then
    .error (.valueError "trace warpgroup_id must be in [0, 7]")
  else if selector.warpId.isSome ∧ selector.warpgroupId.isSome then
    .error (.valueError "trace selector cannot combine warp_id and warpgroup_id")
  else .ok ()

def validatePcOffset (offset : String) : Except OffsetError Unit :=
  match intAuto offset with
  | none => .error .literal
  | some value =>
    if ¬(0 ≤ value ∧ value ≤ uint64Max) then
      .error (.valueError "trace PC offset must fit an unsigned 64-bit integer")
    else .ok ()

/-- `_validate_trace_selector_lists`; a category is one of the enumeration. -/
def validateTraceSelectorLists (selector : TraceSelector) : Except OffsetError Unit :=
  if 32 < selector.pcOffsets.length then
    .error (.valueError "trace selector accepts at most 32 PC offsets")
  else selector.pcOffsets.forM validatePcOffset

def validateTraceConfigBinding (options : TraceOptions) : Except OffsetError Unit :=
  if options.selector.configSource.isSome ∧ options.configArtifact.isNone then
    .error (.valueError "config-targeted trace requires a resolved config artifact")
  else if options.selector.configSource.isNone ∧ options.configArtifact.isSome then
    .error (.valueError "trace config artifact requires a config_source selector")
  else .ok ()

/-- `_validate_trace_runtime_spec`, with the options of the spec it accepts. -/
def validateTraceRuntimeSpec (spec : ExperimentSpec) : Except OffsetError TraceOptions := do
  let options ← validateTraceRuntimeIdentity spec
  validateTraceSelectorScalars options.selector
  validateTraceSelectorLists options.selector
  validateTraceConfigBinding options
  return options

/-! ### Selectors -/

def allowedModes : List String := ["reg_trace", "mem_value_trace", "tma_trace"]

def traceInstrumentModes (primary : ExperimentKind) (modes : List String) :
    Except OffsetError (List String) :=
  if modes.any fun mode => mode ∉ allowedModes then
    .error (.valueError "trace instrument_modes must be an allowlisted list")
  else if modes = [] then .ok []
  else if primary.value ∉ modes then
    .error (.valueError "trace instrument_modes must include the primary mode")
  else
    let normalized := allowedModes.filter (· ∈ modes)
    .ok (if normalized = [primary.value] then [] else normalized)

def effectiveInstrumentModes (options : TraceOptions) : Except OffsetError (List String) :=
  (traceInstrumentModes options.mode options.instrumentModes).map fun modes =>
    if modes = [] then [options.mode.value] else modes

/-- `selector.pc_offsets or _config_pc_offsets(..)`. -/
def requestedPcOffsets (files : Files) (spec : ExperimentSpec) (options : TraceOptions)
    (resolvedConfigPath : Option String) : Except OffsetError (List String) :=
  if options.selector.pcOffsets ≠ [] then .ok options.selector.pcOffsets
  else configPcOffsets files spec options resolvedConfigPath

/-- `_trace_pc_offsets`: the texts are different where their values are. -/
def tracePcOffsets (files : Files) (spec : ExperimentSpec) (options : TraceOptions)
    (resolvedConfigPath : Option String) : Except OffsetError (List String) := do
  let offsets ← requestedPcOffsets files spec options resolvedConfigPath
  match offsets.mapM intAuto with
  | none => .error .literal
  | some values =>
    let normalized := sortedSet values
    if normalized.any fun value => ¬(0 ≤ value ∧ value ≤ uint64Max) then
      .error (.valueError "trace PC offset must fit an unsigned 64-bit integer")
    else if 32 < normalized.length then
      .error (.valueError "targeted trace accepts at most 32 resolved PC offsets")
    else return normalized.map hexInt

def traceWarpMask (selector : TraceSelector) : Except OffsetError (Option String) :=
  match selector.warpId, selector.warpgroupId with
  | some warp, _ =>
    if ¬(0 ≤ warp ∧ warp < 32) then .error (.valueError "trace warp_id must be in [0, 31]")
    else .ok (some (hex (1 <<< warp.toNat)))
  | none, some group =>
    if ¬(0 ≤ group ∧ group < 8) then .error (.valueError "trace warpgroup_id must be in [0, 7]")
    else .ok (some (hex (0xF <<< (group.toNat * 4))))
  | none, none => .ok none

/-! ### Into the environment -/

/-- The settings of a capture that name a kernel, an instrumentation or a selector. -/
structure InstrumentationConfig where
  cutracerSo : String
  instrument : Option String
  kernelFilters : Option String
  exactKernelName : Option String
  exactKernelChecksum : Option String
  traceInstrCategories : Option String
  traceLaunchId : Option ℤ
  traceWarpMask : Option String
  tracePcOffsets : Option String
  traceFormat : Option String
  outputDir : Option String
  dumpCubin : Bool
  traceSizeLimitMb : ℤ
  kernelTimeoutS : ℤ
  noDataTimeoutS : ℤ

/-- `build_cutracer_env`, without the paths of the CUDA tools. -/
def buildCutracerEnv (c : InstrumentationConfig) (baseEnv : Env) : Except OffsetError Env :=
  if c.exactKernelName.isNone ≠ c.exactKernelChecksum.isNone then
    .error (.valueError "exact kernel name and checksum must be provided together")
  else if c.exactKernelName.any blank || c.exactKernelChecksum.any blank then
    .error (.valueError "exact kernel name and checksum must be non-empty")
  else
    let env := baseEnv.set "CUDA_INJECTION64_PATH" c.cutracerSo
    let env : Env := fun n => if n = "CUTRACER_EXACT_KERNEL_NAME" then c.exactKernelName else env n
    let env : Env := fun n =>
      if n = "CUTRACER_EXACT_KERNEL_CHECKSUM" then c.exactKernelChecksum else env n
    let env := env.setOption "CUTRACER_INSTRUMENT" c.instrument
    let env := env.setOption "KERNEL_FILTERS" c.kernelFilters
    let env := env.setOption "CUTRACER_TRACE_LAUNCH_ID" (c.traceLaunchId.map toString)
    let env := env.setOption "CUTRACER_TRACE_WARP_MASK" c.traceWarpMask
    let env := env.setOption "CUTRACER_TRACE_PC_OFFSETS" c.tracePcOffsets
    let env := env.setOption "CUTRACER_TRACE_INSTR_CATEGORIES" c.traceInstrCategories
    let env := env.setOption "CUTRACER_TRACE_FORMAT" c.traceFormat
    let env := env.setOption "CUTRACER_OUTPUT_DIR" c.outputDir
    let env := env.setOption "CUTRACER_DUMP_CUBIN" (if c.dumpCubin then some "1" else none)
    let env := env.set "CUTRACER_TRACE_SIZE_LIMIT_MB" (toString c.traceSizeLimitMb)
    let env := env.set "CUTRACER_KERNEL_TIMEOUT_S" (toString c.kernelTimeoutS)
    .ok (env.set "CUTRACER_NO_DATA_TIMEOUT_S" (toString c.noDataTimeoutS))

/-- `",".join(texts) or None`. -/
def joined (texts : List String) : Option String :=
  let text := ",".intercalate texts
  if text = "" then none else some text

/-- The environment in which `_run_trace_capture` runs the target. -/
def traceCaptureEnv (files : Files) (spec : ExperimentSpec) (options : TraceOptions)
    (resolvedConfigPath : Option String) (cutracerSo attemptDir : String) (baseEnv : Env) :
    Except OffsetError Env := do
  let selectedKernel ← selectedKernel spec options.selector
  let pcOffsets ← tracePcOffsets files spec options resolvedConfigPath
  let modes ← effectiveInstrumentModes options
  let warpMask ← traceWarpMask options.selector
  let config : InstrumentationConfig :=
    { cutracerSo := cutracerSo
      instrument := some (",".intercalate modes)
      kernelFilters := match selectedKernel with
        | some _ => none
        | none => joined spec.unit.kernelFilters
      exactKernelName := selectedKernel.map fun kernel =>
        (kernel.mangledName.filter (· ≠ "")).getD kernel.name
      exactKernelChecksum := selectedKernel.map KernelId.cubinHash
      traceInstrCategories := joined (options.selector.instructionCategories.map (·.value))
      traceLaunchId := options.selector.launchId
      traceWarpMask := warpMask
      tracePcOffsets := joined pcOffsets
      traceFormat := some "ndjson"
      outputDir := some attemptDir
      dumpCubin := true
      traceSizeLimitMb := options.traceSizeLimitMb
      kernelTimeoutS := 0
      noDataTimeoutS := 15 }
  buildCutracerEnv config baseEnv

/-! ### Out of the metadata -/

def optionJson (value : Option ℤ) : Json := (value.map Json.int).getD .null

def listJson (items : List Json) : Json := if items.isEmpty then .null else .arr items

def expectedTargetingMetadata (files : Files) (spec : ExperimentSpec) (options : TraceOptions)
    (resolvedConfigPath : Option String) : Except OffsetError (List (String × Json)) := do
  let warpMask ← traceWarpMask options.selector
  let pcOffsets ← tracePcOffsets files spec options resolvedConfigPath
  let categories := [TraceInstructionCategory.mma, .tma, .sync].filter
    (· ∈ options.selector.instructionCategories)
  return [("trace_launch_id", optionJson options.selector.launchId),
    ("trace_warp_mask", optionJson (warpMask.bind intAuto)),
    ("trace_pc_offsets", listJson ((pcOffsets.filterMap intAuto).map .int)),
    ("trace_pc_filter_valid", .bool true),
    ("trace_instr_categories", listJson (categories.map fun category => .str category.value))]

/-- The strings of a list, or `none` if it has another value. -/
def strings (items : List Json) : Option (List String) :=
  items.mapM fun item => match item with
    | .str s => some s
    | _ => none

/-- `_validate_effective_targeting`; a missing field is null. -/
def validateEffectiveTargeting (metadata expected : List (String × Json)) (modes : List String) :
    Except OffsetError Unit :=
  match expected.find? fun e => (field metadata e.1).getD .null ≠ e.2 with
  | some (name, _) =>
    .error (.valueError ("captured trace targeting metadata differs for " ++ name))
  | none =>
    let same : Bool := match field metadata "instrument_modes" with
      | some (.arr items) => (strings items).any fun actual =>
          actual.insertionSort (· ≤ ·) = modes.insertionSort (· ≤ ·)
      | _ => false
    if same then .ok ()
    else .error (.valueError "captured trace instrumentation mode differs from the trace job")

/-! ### What a spec selects -/

def instrCategory : TraceInstructionCategory → InstrCategory
  | .mma => .mma
  | .tma => .tma
  | .sync => .sync

def SelectsPc (offsets : List String) (pc : UInt64) : Prop :=
  offsets = [] ∨ ∃ offset ∈ offsets, intAuto offset = some (pc.toNat : ℤ)

def SelectsCategory (selector : TraceSelector) (category : InstrCategory) : Prop :=
  selector.instructionCategories = [] ∨
    ∃ c ∈ selector.instructionCategories, instrCategory c = category

def SelectsLaunch (selector : TraceSelector) (launchId : UInt64) : Prop :=
  ∀ l, selector.launchId = some l → (launchId.toNat : ℤ) = l

def SelectsWarp (selector : TraceSelector) (warp : ℕ) : Prop :=
  (∀ w, selector.warpId = some w → (warp : ℤ) = w) ∧
    ∀ group, selector.warpgroupId = some group → (warp : ℤ) / 4 = group

/-- The selectors of a spec hold in the tool as they were meant. -/
structure Conveyed (selector : TraceSelector) (offsets modes : List String)
    (expected : List (String × Json)) (g : TraceSelection) : Prop where
  valid : g.pcFilterValid = true
  pcs : ∀ pc, pc ∈ g.pcOffsets ↔ ∃ offset ∈ offsets, intAuto offset = some (pc.toNat : ℤ)
  requested : g.categoryFilterRequested = true ↔ selector.instructionCategories ≠ []
  categories : ∀ category, category ∈ g.instrCategories ↔
    ∃ c ∈ selector.instructionCategories, instrCategory c = category
  launch : (if g.launchId = Device.allLaunches then none else some (g.launchId.toNat : ℤ)) =
    selector.launchId
  warps : ∀ warp < 32, (g.warpMask ≠ 0 → g.warpMask.toNat.testBit warp = true) ↔ SelectsWarp selector warp
  accepted : ∀ md, validateEffectiveTargeting (g.buildKernelMetadataJson md) expected modes = .ok ()
  instructions : ∀ category pc, g.traceInstructionSelected category pc = true ↔
    SelectsCategory selector category ∧ SelectsPc offsets pc
  records : ∀ (launch : Launch) (t : Thread launch) (launchId : UInt64),
    Device.traceRecordSelected launchId g.launchId g.warpMask t = true ↔
      SelectsLaunch selector launchId ∧ SelectsWarp selector t.warp.toNat

/-! ### Validated specs -/

/-- What validation leaves of the selectors. -/
structure RuntimeSpec (spec : ExperimentSpec) (options : TraceOptions) : Prop where
  trace : spec.trace = some options
  mode : options.mode = .regTrace ∨ options.mode = .memValueTrace
  kernel : spec.unit.kernel.isSome
  launch : ∀ l, options.selector.launchId = some l → 0 ≤ l ∧ l ≤ uint64Max
  single : options.selector.warpId = none ∨ options.selector.warpgroupId = none

theorem outside_eq_false {value : Option ℤ} {last : ℤ} :
    outside value last = false ↔ ∀ v, value = some v → 0 ≤ v ∧ v ≤ last := by
  cases value with
  | none => simp [outside]
  | some v => simp [outside]

theorem validateTraceRuntimeSpec_ok {spec : ExperimentSpec} {options : TraceOptions}
    (h : validateTraceRuntimeSpec spec = .ok options) : RuntimeSpec spec options := by
  obtain ⟨options', hidentity, h⟩ := bind_ok h
  obtain ⟨⟨⟩, hscalars, h⟩ := bind_ok h
  obtain ⟨⟨⟩, -, h⟩ := bind_ok h
  obtain ⟨⟨⟩, -, h⟩ := bind_ok h
  cases h
  unfold validateTraceRuntimeIdentity at hidentity
  unfold validateTraceSelectorScalars at hscalars
  split at hidentity
  · cases hidentity
  rename_i hkind
  split at hidentity
  · cases hidentity
  rename_i options hoptions
  split_ifs at hidentity with hmode hlimit hkernel
  cases hidentity
  split_ifs at hscalars with hlaunch hwarp hgroup hboth
  refine ⟨hoptions, ?_, ?_, ?_, ?_⟩
  · have heq := not_not.mp hmode
    rw [heq]
    by_contra hne
    exact hkind (not_or.mp hne)
  · have hpinned := hkernel
    cases hk : spec.unit.kernel with
    | none => simp [hk, Service.pinned] at hpinned
    | some kernel => rfl
  · exact outside_eq_false.mp (by simpa using hlaunch)
  · cases hw : options.selector.warpId with
    | none => exact Or.inl rfl
    | some w =>
      refine Or.inr ?_
      by_contra hg
      exact hboth ⟨by simp [hw], Option.isSome_iff_ne_none.mpr hg⟩

/-- Resolved offsets are the hexadecimal texts of at most 32 numbers in increasing order. -/
theorem tracePcOffsets_ok {files : Files} {spec : ExperimentSpec} {options : TraceOptions}
    {resolved : Option String} {offsets : List String}
    (h : tracePcOffsets files spec options resolved = .ok offsets) :
    ∃ pcs : List ℕ, pcs.Pairwise (· < ·) ∧ pcs.length ≤ 32 ∧ (∀ pc ∈ pcs, pc < 2 ^ 64) ∧
      offsets = pcs.map hex := by
  unfold tracePcOffsets at h
  obtain ⟨raw, -, h⟩ := bind_ok h
  split at h
  · cases h
  rename_i values hvalues
  dsimp only at h
  split_ifs at h with hrange hlength
  have hnonneg : ∀ value ∈ sortedSet values, 0 ≤ value ∧ value ≤ uint64Max := by
    intro value hvalue
    by_contra hout
    exact hrange (List.any_eq_true.mpr ⟨value, hvalue, decide_eq_true hout⟩)
  have hcast : ((sortedSet values).map Int.toNat).map (fun n : ℕ => (n : ℤ)) = sortedSet values := by
    rw [List.map_map]
    conv_rhs => rw [← List.map_id (sortedSet values)]
    apply List.map_congr_left
    intro value hvalue
    exact Int.toNat_of_nonneg (hnonneg value hvalue).1
  refine ⟨(sortedSet values).map Int.toNat, ?_, ?_, ?_, ?_⟩
  · have hsorted := sortedSet_pairwise values
    rw [← hcast, List.pairwise_map] at hsorted
    exact hsorted.imp fun hlt => by simpa using hlt
  · simpa using hlength
  · intro pc hpc
    obtain ⟨value, hvalue, rfl⟩ := List.mem_map.mp hpc
    have hbound := hnonneg value hvalue
    simp only [uint64Max] at hbound
    omega
  · rw [← Except.ok.inj h, List.map_map]
    apply List.map_congr_left
    intro value hvalue
    have h0 := (hnonneg value hvalue).1
    rw [hexInt, if_neg (by omega)]
    simp only [Function.comp_apply]
    congr 1
    omega

/-! ### What the tool reads -/

def maskOf (selector : TraceSelector) : ℕ :=
  match selector.warpId, selector.warpgroupId with
  | some warp, _ => 2 ^ warp.toNat
  | none, some group => 15 <<< (group.toNat * 4)
  | none, none => 0

theorem traceWarpMask_ok {selector : TraceSelector} {mask : Option String}
    (h : traceWarpMask selector = .ok mask) :
    maskOf selector < 2 ^ 32 ∧
      mask = (if selector.warpId = none ∧ selector.warpgroupId = none then none
        else some (hex (maskOf selector))) := by
  unfold traceWarpMask at h
  unfold maskOf
  split at h
  · rename_i warp hwarp
    split_ifs at h with hrange
    have hlt : warp.toNat < 32 := by omega
    have hpow : 2 ^ warp.toNat < 2 ^ 32 := Nat.pow_lt_pow_right (by decide) hlt
    rw [← Except.ok.inj h, Nat.one_shiftLeft]
    simpa [hwarp] using hpow
  · rename_i group hwarp hgroup
    split_ifs at h with hrange
    have hlt : group.toNat < 8 := by omega
    have hbound : 15 <<< (group.toNat * 4) < 2 ^ 32 := by
      generalize group.toNat = n at hlt
      interval_cases n <;> decide
    rw [← Except.ok.inj h]
    simpa [hwarp, hgroup] using hbound
  · rename_i hwarp hgroup
    rw [← Except.ok.inj h]
    simp [hwarp, hgroup]

/-- The settings of the tool for a spec and its resolved offsets. -/
structure Parsed (selector : TraceSelector) (pcs : List ℕ) (modes : List String) (analysis : String)
    (g : TraceSelection) : Prop where
  types : g.enabledInstrumentTypes =
    Device.initAnalysis analysis (Device.initInstrumentation (",".intercalate modes))
  requested : g.categoryFilterRequested = decide (selector.instructionCategories ≠ [])
  categories : g.instrCategories = selector.instructionCategories.map instrCategory
  launch : g.launchId = ((selector.launchId.map fun l => UInt64.ofNat l.toNat).getD Device.allLaunches)
  mask : g.warpMask = UInt32.ofNat (maskOf selector)
  pcs : g.pcOffsets = (pcs.map UInt64.ofNat).reverse
  valid : g.pcFilterValid = true

/-- The digits of a hexadecimal text are neither commas nor blanks. -/
theorem hex_plain {n : ℕ} : ∀ c ∈ (hex n).toList, c ≠ ',' ∧ Strtol.isSpace c = false := by
  intro c hc
  rw [Stress.toList_hex, List.mem_cons, List.mem_cons] at hc
  rcases hc with rfl | rfl | hc
  · decide
  · decide
  · obtain ⟨m, hm, rfl⟩ := mem_toDigits hc
    interval_cases m <;> decide

theorem joined_eq {texts : List String} (h : ∀ text ∈ texts, text ≠ "") :
    joined texts = if texts = [] then none else some (",".intercalate texts) := by
  unfold joined
  cases texts with
  | nil => rfl
  | cons text texts =>
    have htext : text ≠ "" := h text List.mem_cons_self
    have hne : ",".intercalate (text :: texts) ≠ "" := by
      intro hempty
      have hlist := congrArg String.toList hempty
      rw [String.toList_intercalate, List.map_cons] at hlist
      cases texts with
      | nil => simp [htext] at hlist
      | cons other texts => simp [htext] at hlist
    simp [hne]

/-- The offsets go through the environment unchanged. -/
theorem parse_offsets {pcs : List ℕ} (hsorted : pcs.Pairwise (· < ·)) (hlength : pcs.length ≤ 32)
    (hlt : ∀ pc ∈ pcs, pc < 2 ^ 64) :
    Device.parseTracePcOffsets ((joined (pcs.map hex)).getD "") =
      ((pcs.map UInt64.ofNat).reverse, true) := by
  have htexts : ∀ text ∈ pcs.map hex, text ≠ "" := by
    intro text htext hempty
    obtain ⟨pc, -, rfl⟩ := List.mem_map.mp htext
    have hlist := congrArg String.toList hempty
    rw [Stress.toList_hex] at hlist
    cases hlist
  rw [joined_eq htexts]
  by_cases hnil : pcs = []
  · subst hnil
    exact Device.parseTracePcOffsets_empty
  · have hplain : ∀ text ∈ pcs.map hex, ∀ c ∈ text.toList, c ≠ ',' ∧ Strtol.isSpace c = false := by
      intro text htext
      obtain ⟨pc, -, rfl⟩ := List.mem_map.mp htext
      exact hex_plain
    have hinj : (pcs.map UInt64.ofNat).Nodup := by
      refine List.Nodup.map_on ?_ (hsorted.imp fun h => Nat.ne_of_lt h)
      intro a ha b hb heq
      have heq' := congrArg UInt64.toNat heq
      rwa [UInt64.toNat_ofNat_of_lt' (hlt a ha), UInt64.toNat_ofNat_of_lt' (hlt b hb)] at heq'
    have hread : List.Forall₂ (fun t pc => Strtol.strtoull 0 t = some (pc, []))
        ((pcs.map hex).map String.toList) (pcs.map UInt64.ofNat) := by
      rw [List.map_map, List.forall₂_map_left_iff, List.forall₂_map_right_iff]
      apply List.forall₂_same.mpr
      intro pc hpc
      rw [Function.comp_apply, Stress.toList_hex, Strtol.strtoull_hex (hlt pc hpc)]
    rw [if_neg (by simpa using hnil), Option.getD_some, Device.parseTracePcOffsets,
      Device.tokens_intercalate (by simpa using hnil) hplain,
      Device.insertPcOffsets_numbers hread (by simpa using hinj) (by simpa using hlength)]
    simp

/-- So do the categories. -/
theorem parse_categories (categories : List TraceInstructionCategory) :
    Device.initTraceInstrCategories ((joined (categories.map (·.value))).getD "") =
      (decide (categories ≠ []), categories.map instrCategory) := by
  have htexts : ∀ text ∈ categories.map TraceInstructionCategory.value, text ≠ "" := by
    intro text htext
    obtain ⟨category, -, rfl⟩ := List.mem_map.mp htext
    cases category <;> decide
  rw [joined_eq htexts]
  by_cases hnil : categories = []
  · subst hnil
    rfl
  · have hplain : ∀ text ∈ categories.map TraceInstructionCategory.value, ∀ c ∈ text.toList,
        c ≠ ',' ∧ Strtol.isSpace c = false := by
      intro text htext c hc
      obtain ⟨category, -, rfl⟩ := List.mem_map.mp htext
      have hall : category.value.toList.all (fun c => decide (c ≠ ',') && !Strtol.isSpace c) = true := by
        cases category <;> rfl
      simpa using List.all_eq_true.mp hall c hc
    have hne : ",".intercalate (categories.map TraceInstructionCategory.value) ≠ "" := by
      have hjoined := joined_eq htexts
      rw [if_neg (by simpa using hnil)] at hjoined
      intro hempty
      simp [joined, hempty] at hjoined
    rw [if_neg (by simpa using hnil), Option.getD_some, Device.initTraceInstrCategories,
      Device.tokens_intercalate (by simpa using hnil) hplain]
    have hread : ((categories.map TraceInstructionCategory.value).map String.toList).filterMap
        Device.categoryOfToken = categories.map instrCategory := by
      have hcategory : (Device.categoryOfToken ∘ String.toList) ∘ TraceInstructionCategory.value =
          some ∘ instrCategory := by
        funext category
        cases category <;> rfl
      rw [List.filterMap_map, List.filterMap_map, hcategory, List.filterMap_eq_map]
    rw [hread]
    simp [hne, hnil]

section Capture

variable {files : Files} {spec : ExperimentSpec} {options : TraceOptions} {resolved : Option String}
  {cutracerSo attemptDir : String} {baseEnv env : Env}

/-- No variable of a targeted trace is inherited. -/
def NoTraceVariables (env : Env) : Prop :=
  ∀ name, "CUTRACER_TRACE_".toList <+: name.toList → env name = none

theorem parse_buildCutracerEnv {c : InstrumentationConfig} (hbase : NoTraceVariables baseEnv)
    (h : buildCutracerEnv c baseEnv = .ok env) :
    env "CUTRACER_INSTRUMENT" = c.instrument.or (baseEnv "CUTRACER_INSTRUMENT") ∧
      env "CUTRACER_ANALYSIS" = baseEnv "CUTRACER_ANALYSIS" ∧
      env "CUTRACER_TRACE_LAUNCH_ID" = c.traceLaunchId.map toString ∧
      env "CUTRACER_TRACE_WARP_MASK" = c.traceWarpMask ∧
      env "CUTRACER_TRACE_PC_OFFSETS" = c.tracePcOffsets ∧
      env "CUTRACER_TRACE_INSTR_CATEGORIES" = c.traceInstrCategories := by
  unfold buildCutracerEnv at h
  split at h
  · cases h
  split at h
  · cases h
  cases h
  have hlaunch := hbase "CUTRACER_TRACE_LAUNCH_ID" ⟨"LAUNCH_ID".toList, rfl⟩
  have hmask := hbase "CUTRACER_TRACE_WARP_MASK" ⟨"WARP_MASK".toList, rfl⟩
  have hpcs := hbase "CUTRACER_TRACE_PC_OFFSETS" ⟨"PC_OFFSETS".toList, rfl⟩
  have hcategories := hbase "CUTRACER_TRACE_INSTR_CATEGORIES" ⟨"INSTR_CATEGORIES".toList, rfl⟩
  simp [Env.set, Env.setOption_apply, hlaunch, hmask, hpcs, hcategories]

/-- The tool reads the selectors of the spec. -/
theorem parse_captureEnv (hspec : RuntimeSpec spec options) (hbase : NoTraceVariables baseEnv)
    (h : traceCaptureEnv files spec options resolved cutracerSo attemptDir baseEnv = .ok env) :
    ∃ pcs : List ℕ, ∃ modes mask, pcs.Pairwise (· < ·) ∧ (∀ pc ∈ pcs, pc < 2 ^ 64) ∧
      tracePcOffsets files spec options resolved = .ok (pcs.map hex) ∧
      effectiveInstrumentModes options = .ok modes ∧ traceWarpMask options.selector = .ok mask ∧
      Parsed options.selector pcs modes (baseEnv.getVarStr "CUTRACER_ANALYSIS" "")
        (initConfigFromEnv env) := by
  unfold traceCaptureEnv at h
  obtain ⟨kernel, -, h⟩ := bind_ok h
  obtain ⟨offsets, hoffsets, h⟩ := bind_ok h
  obtain ⟨modes, hmodes, h⟩ := bind_ok h
  obtain ⟨mask, hmask, h⟩ := bind_ok h
  obtain ⟨pcs, hsorted, hlength, hlt, rfl⟩ := tracePcOffsets_ok hoffsets
  obtain ⟨hinstrument, hanalysis, hlaunch, hmaskEnv, hpcsEnv, hcategoriesEnv⟩ :=
    parse_buildCutracerEnv hbase h
  have hcategories := parse_categories options.selector.instructionCategories
  have hpcs := parse_offsets hsorted hlength hlt
  obtain ⟨hbound, hmaskText⟩ := traceWarpMask_ok hmask
  refine ⟨pcs, modes, mask, hsorted, hlt, hoffsets, hmodes, hmask, ?_, ?_, ?_, ?_, ?_, ?_, ?_⟩
  · simp only [initConfigFromEnv, Env.getVarStr, hinstrument, hanalysis, Option.some_or, Option.getD_some]
  · simp only [initConfigFromEnv, Env.getVarStr, hcategoriesEnv, hcategories]
  · simp only [initConfigFromEnv, Env.getVarStr, hcategoriesEnv, hcategories]
  · simp only [initConfigFromEnv, Env.getVarUInt64, hlaunch]
    cases hl : options.selector.launchId with
    | none => rfl
    | some l =>
      obtain ⟨n, rfl⟩ := Int.eq_ofNat_of_zero_le (hspec.launch l hl).1
      have hn : n < 2 ^ 64 := by
        have hle := (hspec.launch _ hl).2
        simp only [uint64Max] at hle
        omega
      have htext : (toString (n : ℤ)).toList = Nat.toDigits 10 n := by
        change (Nat.repr n).toList = _
        exact Nat.toList_repr
      simp only [Option.map_some, Option.getD_some, htext, Strtol.unsigned_toDigits hn, Int.toNat_natCast]
  · simp only [initConfigFromEnv, Env.getVarUInt32Auto, hmaskEnv, hmaskText]
    split_ifs with hnone
    · simp [maskOf, hnone]
    · simp only [Stress.toList_hex]
      rw [Strtol.unsigned_hex (by omega)]
      simp
  · simp only [initConfigFromEnv, Env.getVarStr, hpcsEnv, hpcs]
  · simp only [initConfigFromEnv, Env.getVarStr, hpcsEnv, hpcs]

end Capture

/-! ### Instrumentation modes -/

theorem effectiveInstrumentModes_sublist {options : TraceOptions} {modes : List String}
    (hmode : options.mode = .regTrace ∨ options.mode = .memValueTrace)
    (h : effectiveInstrumentModes options = .ok modes) : modes.Sublist allowedModes := by
  obtain ⟨normalized, hnormalized, rfl⟩ := map_ok h
  have hprimary : [options.mode.value].Sublist allowedModes := by
    rcases hmode with heq | heq <;> rw [heq] <;> decide
  have hsublist : normalized.Sublist allowedModes := by
    unfold traceInstrumentModes at hnormalized
    split_ifs at hnormalized with hallowed hnil hcontains
    · rw [← Except.ok.inj hnormalized]
      exact List.nil_sublist _
    · rw [← Except.ok.inj hnormalized]
      split_ifs
      · exact List.nil_sublist _
      · exact List.filter_sublist
  split_ifs
  · exact hprimary
  · exact hsublist

theorem names_initInstrumentation {modes : List String} (h : modes.Sublist allowedModes) :
    (Device.initInstrumentation (",".intercalate modes)).map InstrumentType.name = modes := by
  have hall : ∀ modes ∈ allowedModes.sublists,
      (Device.initInstrumentation (",".intercalate modes)).map InstrumentType.name = modes := by
    decide +kernel
  exact hall modes (List.mem_sublists.mpr h)

theorem insertionSort_eq_iff {α : Type*} [LinearOrder α] {xs ys : List α} :
    xs.insertionSort (· ≤ ·) = ys.insertionSort (· ≤ ·) ↔ xs.Perm ys := by
  constructor
  · intro h
    have hxs := List.perm_insertionSort (· ≤ ·) xs
    rw [h] at hxs
    exact hxs.symm.trans (List.perm_insertionSort (· ≤ ·) ys)
  · intro h
    have hperm : (xs.insertionSort (· ≤ ·)).Perm (ys.insertionSort (· ≤ ·)) :=
      ((List.perm_insertionSort _ xs).trans h).trans (List.perm_insertionSort _ ys).symm
    exact hperm.eq_of_pairwise' (List.pairwise_insertionSort _ xs) (List.pairwise_insertionSort _ ys)

theorem strings_map (xs : List String) : strings (xs.map .str) = some xs := by
  induction xs with
  | nil => rfl
  | cons x xs ih =>
    rw [strings] at ih ⊢
    simp [ih]

theorem validateEffectiveTargeting_ok {g : TraceSelection} {md expected : List (String × Json)}
    {modes : List String} :
    validateEffectiveTargeting (g.buildKernelMetadataJson md) expected modes = .ok () ↔
      (∀ e ∈ expected, (field (g.buildKernelMetadataJson md) e.1).getD .null = e.2) ∧
        (g.enabledInstrumentTypes.map InstrumentType.name).Perm modes := by
  have hmodes : field (g.buildKernelMetadataJson md) "instrument_modes" =
      some (.arr ((g.enabledInstrumentTypes.map InstrumentType.name).map .str)) := by
    simp [Device.field_metadata, List.map_map, Function.comp_def]
  unfold validateEffectiveTargeting
  cases hfind : expected.find? fun e =>
      (field (g.buildKernelMetadataJson md) e.1).getD .null ≠ e.2 with
  | some e =>
    have he := List.find?_some hfind
    have hmem := List.mem_of_find?_eq_some hfind
    simp only [reduceCtorEq, false_iff, not_and]
    intro hall
    exact absurd (hall e hmem) (by simpa using he)
  | none =>
    have hall : ∀ e ∈ expected, (field (g.buildKernelMetadataJson md) e.1).getD .null = e.2 := by
      intro e he
      simpa using List.find?_eq_none.mp hfind e he
    simp only [hmodes, strings_map, Option.any_some, decide_eq_true_eq, insertionSort_eq_iff]
    split_ifs with h
    · exact ⟨fun _ => ⟨hall, h⟩, fun _ => rfl⟩
    · simp [h]

theorem mem_initAnalysis {analysis : String} {enabled : List InstrumentType} {type : InstrumentType} :
    type ∈ Device.initAnalysis analysis enabled ↔
      type ∈ enabled ∨ type ∈ Device.forcedTypes analysis := by
  unfold Device.initAnalysis
  induction Device.forcedTypes analysis generalizing enabled with
  | nil => simp
  | cons forced types ih =>
    rw [List.foldl_cons, ih, Device.addEnabledInstrumentType]
    split_ifs with h
    · rw [List.mem_cons]
      constructor
      · rintro (h' | h')
        · exact Or.inl h'
        · exact Or.inr (Or.inr h')
      · rintro (h' | rfl | h')
        · exact Or.inl h'
        · exact Or.inl h
        · exact Or.inr h'
    · simp [or_assoc]

theorem initAnalysis_eq {analysis : String} {enabled : List InstrumentType}
    (h : ∀ type ∈ Device.forcedTypes analysis, type ∈ enabled) :
    Device.initAnalysis analysis enabled = enabled := by
  unfold Device.initAnalysis
  generalize Device.forcedTypes analysis = types at h
  induction types with
  | nil => rfl
  | cons forced types ih =>
    rw [List.foldl_cons, Device.addEnabledInstrumentType, if_pos (h forced List.mem_cons_self)]
    exact ih fun type htype => h type (List.mem_cons_of_mem _ htype)

/-- An analysis forces no type that the modes lack. -/
def FitsModes (analysis : String) (modes : List String) : Prop :=
  ∀ type ∈ Device.forcedTypes analysis, type.name ∈ modes

/-- The enabled types are the modes, unless an analysis forces another. -/
theorem types_perm_iff {analysis : String} {modes : List String} (h : modes.Sublist allowedModes) :
    ((Device.initAnalysis analysis (Device.initInstrumentation (",".intercalate modes))).map
      InstrumentType.name).Perm modes ↔ FitsModes analysis modes := by
  have hnames := names_initInstrumentation h
  constructor
  · intro hperm type htype
    exact hperm.mem_iff.mp (List.mem_map_of_mem (mem_initAnalysis.mpr (Or.inr htype)))
  · intro hfits
    have hinj : Function.Injective InstrumentType.name := by
      intro a b hab
      cases a <;> cases b <;> first | rfl | simp [InstrumentType.name] at hab
    have henabled : ∀ type ∈ Device.forcedTypes analysis,
        type ∈ Device.initInstrumentation (",".intercalate modes) := by
      intro type htype
      have hmem := hfits type htype
      rw [← hnames] at hmem
      exact (List.mem_map_of_injective hinj).mp hmem
    rw [initAnalysis_eq henabled, hnames]

/-! ### Selectors in the metadata and the filters -/

section Conveyed

variable {selector : TraceSelector} {pcs : List ℕ} {modes : List String} {analysis : String}
  {g : TraceSelection}

/-- The fields that the metadata of a kernel must have. -/
def expectedFields (selector : TraceSelector) (pcs : List ℕ) : List (String × Json) :=
  [("trace_launch_id", optionJson selector.launchId),
    ("trace_warp_mask", if maskOf selector = 0 then .null else .int (maskOf selector)),
    ("trace_pc_offsets", listJson (pcs.map fun pc : ℕ => .int pc)),
    ("trace_pc_filter_valid", .bool true),
    ("trace_instr_categories", listJson
      (([TraceInstructionCategory.mma, .tma, .sync].filter
        (· ∈ selector.instructionCategories)).map fun category => .str category.value))]

theorem maskOf_eq_zero : maskOf selector = 0 ↔ selector.warpId = none ∧ selector.warpgroupId = none := by
  unfold maskOf
  split
  · rename_i warp hwarp
    simp [hwarp]
  · rename_i group hwarp hgroup
    simp [hwarp, hgroup, Nat.shiftLeft_eq]
  · rename_i hwarp hgroup
    simp [hwarp, hgroup]

theorem expectedTargetingMetadata_eq {files : Files} {spec : ExperimentSpec} {options : TraceOptions}
    {resolved : Option String} {mask : Option String}
    (hoffsets : tracePcOffsets files spec options resolved = .ok (pcs.map hex))
    (hmask : traceWarpMask options.selector = .ok mask) :
    expectedTargetingMetadata files spec options resolved =
      .ok (expectedFields options.selector pcs) := by
  have hvalues : (pcs.map hex).filterMap intAuto = pcs.map fun pc : ℕ => (pc : ℤ) := by
    rw [List.filterMap_map]
    have hread : intAuto ∘ hex = some ∘ fun pc : ℕ => (pc : ℤ) := by
      funext pc
      exact intAuto_hex pc
    rw [hread, List.filterMap_eq_map]
  obtain ⟨-, hmaskText⟩ := traceWarpMask_ok hmask
  have hmaskJson : optionJson (mask.bind intAuto) =
      if maskOf options.selector = 0 then .null else .int (maskOf options.selector) := by
    rw [hmaskText]
    by_cases hzero : maskOf options.selector = 0
    · rw [if_pos (maskOf_eq_zero.mp hzero), if_pos hzero]
      rfl
    · rw [if_neg fun h => hzero (maskOf_eq_zero.mpr h), if_neg hzero, Option.bind_some, intAuto_hex]
      rfl
  unfold expectedTargetingMetadata
  rw [hmask, hoffsets]
  simp only [ok_bind, hvalues, hmaskJson, List.map_map, pure_ok, expectedFields, Function.comp_def]

variable (hparsed : Parsed selector pcs modes analysis g)

include hparsed in
theorem launchJson_eq_iff (hlaunch : ∀ l, selector.launchId = some l → 0 ≤ l ∧ l ≤ uint64Max) :
    g.launchJson = optionJson selector.launchId ↔ selector.launchId ≠ some uint64Max := by
  rw [TraceSelection.launchJson, hparsed.launch]
  cases hl : selector.launchId with
  | none => simp [optionJson]
  | some l =>
    obtain ⟨n, rfl⟩ := Int.eq_ofNat_of_zero_le (hlaunch l hl).1
    have hle := (hlaunch _ hl).2
    simp only [uint64Max] at hle ⊢
    have hn : n < 2 ^ 64 := by omega
    have hall : UInt64.ofNat n = Device.allLaunches ↔ n = 2 ^ 64 - 1 := by
      rw [← UInt64.toNat_inj, UInt64.toNat_ofNat_of_lt' hn]
      rfl
    simp only [Option.map_some, Option.getD_some, Int.toNat_natCast, optionJson, hall,
      UInt64.toNat_ofNat_of_lt' hn]
    split_ifs with h
    · simp [h]
    · simp only [ne_eq, Option.some.injEq, true_iff]
      omega

include hparsed in
theorem warpMaskJson_eq (hmask : maskOf selector < 2 ^ 32) :
    g.warpMaskJson = if maskOf selector = 0 then .null else .int (maskOf selector) := by
  have hzero : UInt32.ofNat (maskOf selector) = 0 ↔ maskOf selector = 0 := by
    rw [← UInt32.toNat_inj, UInt32.toNat_ofNat_of_lt' hmask]
    rfl
  simp only [TraceSelection.warpMaskJson, hparsed.mask, hzero, UInt32.toNat_ofNat_of_lt' hmask]

include hparsed in
theorem pcOffsetsJson_eq (hsorted : pcs.Pairwise (· < ·)) (hlt : ∀ pc ∈ pcs, pc < 2 ^ 64) :
    g.pcOffsetsJson = listJson (pcs.map fun pc : ℕ => .int pc) := by
  have hback : (pcs.map UInt64.ofNat).map UInt64.toNat = pcs := by
    rw [List.map_map]
    conv_rhs => rw [← List.map_id pcs]
    apply List.map_congr_left
    intro pc hpc
    exact UInt64.toNat_ofNat_of_lt' (hlt pc hpc)
  have hsort : ((pcs.map UInt64.ofNat).reverse.map UInt64.toNat).insertionSort (· ≤ ·) = pcs := by
    rw [List.map_reverse, hback, insertionSort_eq_iff.mpr (List.reverse_perm pcs)]
    exact (hsorted.imp fun h => Nat.le_of_lt h).insertionSort_eq
  simp only [TraceSelection.pcOffsetsJson, hparsed.pcs, hsort, listJson]
  cases pcs <;> simp

include hparsed in
theorem categoriesJson_eq :
    g.categoriesJson = listJson
      (([TraceInstructionCategory.mma, .tma, .sync].filter
        (· ∈ selector.instructionCategories)).map fun category => .str category.value) := by
  have hmem : ∀ category : TraceInstructionCategory,
      (g.instrCategories.contains (instrCategory category)) =
        decide (category ∈ selector.instructionCategories) := by
    intro category
    rw [hparsed.categories, List.contains_eq_mem]
    apply decide_eq_decide.mpr
    rw [List.mem_map_of_injective]
    intro a b hab
    cases a <;> cases b <;> first | rfl | cases hab
  have hmma := hmem .mma
  have htma := hmem .tma
  have hsync := hmem .sync
  simp only [instrCategory] at hmma htma hsync
  rw [TraceSelection.categoriesJson, hparsed.requested]
  by_cases hnil : selector.instructionCategories = []
  · simp [hnil, listJson]
  · obtain ⟨c, hc⟩ := List.exists_mem_of_ne_nil _ hnil
    have hsome : ¬(([TraceInstructionCategory.mma, .tma, .sync].filter
        (· ∈ selector.instructionCategories)).map fun category => Json.str category.value).isEmpty = true := by
      intro hempty
      rw [List.isEmpty_iff, List.map_eq_nil_iff, List.filter_eq_nil_iff] at hempty
      exact hempty c (by cases c <;> simp) (by simpa using hc)
    rw [listJson, if_neg hsome, if_pos (by simpa using hnil)]
    congr 1
    simp only [List.filterMap_cons, List.filterMap_nil, hmma, htma, hsync, List.filter_cons, List.filter_nil]
    by_cases h1 : TraceInstructionCategory.mma ∈ selector.instructionCategories <;>
      by_cases h2 : TraceInstructionCategory.tma ∈ selector.instructionCategories <;>
      by_cases h3 : TraceInstructionCategory.sync ∈ selector.instructionCategories <;>
      simp [h1, h2, h3, TraceInstructionCategory.value]

include hparsed in
/-- The metadata reports what is expected, but for a launch that is no launch. -/
theorem reported_iff (hsorted : pcs.Pairwise (· < ·)) (hlt : ∀ pc ∈ pcs, pc < 2 ^ 64)
    (hmask : maskOf selector < 2 ^ 32)
    (hlaunch : ∀ l, selector.launchId = some l → 0 ≤ l ∧ l ≤ uint64Max)
    (md : List (String × Json)) :
    (∀ e ∈ expectedFields selector pcs,
      (field (g.buildKernelMetadataJson md) e.1).getD .null = e.2) ↔
        selector.launchId ≠ some uint64Max := by
  rw [← launchJson_eq_iff hparsed hlaunch]
  simp [expectedFields, Device.field_metadata, warpMaskJson_eq hparsed hmask,
    pcOffsetsJson_eq hparsed hsorted hlt, categoriesJson_eq hparsed, hparsed.valid]

theorem testBit_maskOf {mask : Option String} (hmask : traceWarpMask selector = .ok mask)
    (hsingle : selector.warpId = none ∨ selector.warpgroupId = none) (hne : maskOf selector ≠ 0)
    (warp : ℕ) : (maskOf selector).testBit warp = true ↔ SelectsWarp selector warp := by
  unfold traceWarpMask at hmask
  unfold maskOf at hne ⊢
  unfold SelectsWarp
  split at hmask
  · rename_i w hw
    split_ifs at hmask with hrange
    have hgroup : selector.warpgroupId = none := hsingle.resolve_left (by simp [hw])
    simp only [hw, hgroup, Nat.testBit_two_pow, decide_eq_true_eq, Option.some.injEq, forall_eq',
      reduceCtorEq, false_implies, implies_true, and_true]
    omega
  · rename_i group hw hgroup
    split_ifs at hmask with hrange
    have hbits : Nat.testBit (15 <<< (group.toNat * 4)) warp = true ↔ warp / 4 = group.toNat := by
      have hfifteen : (15 : ℕ) = 2 ^ 4 - 1 := rfl
      rw [Nat.testBit_shiftLeft, hfifteen, Nat.testBit_two_pow_sub_one, Bool.and_eq_true,
        decide_eq_true_eq, decide_eq_true_eq]
      omega
    simp only [hw, hgroup, hbits, Option.some.injEq, forall_eq', reduceCtorEq, false_implies,
      implies_true, true_and]
    omega
  · rename_i hw hgroup
    simp [hw, hgroup] at hne

theorem selectsWarp_of_zero (hzero : maskOf selector = 0) (warp : ℕ) : SelectsWarp selector warp := by
  obtain ⟨hw, hgroup⟩ := maskOf_eq_zero.mp hzero
  simp [SelectsWarp, hw, hgroup]

include hparsed in
/-- The launch filter is the selected launch, unless that is the number of no launch. -/
theorem launchId_eq (hlaunch : ∀ l, selector.launchId = some l → 0 ≤ l ∧ l ≤ uint64Max)
    (hsentinel : selector.launchId ≠ some uint64Max) :
    (if g.launchId = Device.allLaunches then none else some (g.launchId.toNat : ℤ)) =
      selector.launchId := by
  have hjson := (launchJson_eq_iff hparsed hlaunch).mpr hsentinel
  rw [TraceSelection.launchJson] at hjson
  cases hl : selector.launchId with
  | none =>
    rw [hl] at hjson
    split_ifs at hjson ⊢ with h
    · rfl
    · cases hjson
  | some l =>
    rw [hl] at hjson
    split_ifs at hjson ⊢ with h
    · cases hjson
    · exact congrArg some (Json.int.inj hjson)

include hparsed in
theorem warpMask_iff {mask : Option String} (hmask : traceWarpMask selector = .ok mask)
    (hsingle : selector.warpId = none ∨ selector.warpgroupId = none) (warp : ℕ) :
    (g.warpMask ≠ 0 → g.warpMask.toNat.testBit warp = true) ↔ SelectsWarp selector warp := by
  have hbound := (traceWarpMask_ok hmask).1
  have htoNat : g.warpMask.toNat = maskOf selector := by
    rw [hparsed.mask, UInt32.toNat_ofNat_of_lt' hbound]
  have hzero : g.warpMask = 0 ↔ maskOf selector = 0 := by
    rw [← UInt32.toNat_inj, htoNat]
    rfl
  rw [htoNat, ne_eq, hzero]
  by_cases h : maskOf selector = 0
  · simp [h, selectsWarp_of_zero h]
  · simp [h, testBit_maskOf hmask hsingle h]

include hparsed in
/-- Only a launch that is no launch and a forced mode are in the way of the selectors. -/
theorem conveyed_iff (hsorted : pcs.Pairwise (· < ·)) (hlt : ∀ pc ∈ pcs, pc < 2 ^ 64)
    (hmodes : modes.Sublist allowedModes) {mask : Option String}
    (hmask : traceWarpMask selector = .ok mask)
    (hlaunch : ∀ l, selector.launchId = some l → 0 ≤ l ∧ l ≤ uint64Max)
    (hsingle : selector.warpId = none ∨ selector.warpgroupId = none) :
    Conveyed selector (pcs.map hex) modes (expectedFields selector pcs) g ↔
      selector.launchId ≠ some uint64Max ∧ FitsModes analysis modes := by
  have hbound := (traceWarpMask_ok hmask).1
  have haccepted : ∀ md, validateEffectiveTargeting (g.buildKernelMetadataJson md)
      (expectedFields selector pcs) modes = .ok () ↔
        selector.launchId ≠ some uint64Max ∧ FitsModes analysis modes := by
    intro md
    rw [validateEffectiveTargeting_ok, reported_iff hparsed hsorted hlt hbound hlaunch, hparsed.types,
      types_perm_iff hmodes]
  constructor
  · intro h
    exact (haccepted []).mp (h.accepted [])
  · rintro ⟨hsentinel, hfits⟩
    have hpcs : ∀ pc, pc ∈ g.pcOffsets ↔
        ∃ offset ∈ pcs.map hex, intAuto offset = some (pc.toNat : ℤ) := by
      intro pc
      rw [hparsed.pcs, List.mem_reverse, List.mem_map]
      constructor
      · rintro ⟨n, hn, rfl⟩
        refine ⟨hex n, List.mem_map_of_mem hn, ?_⟩
        rw [intAuto_hex, UInt64.toNat_ofNat_of_lt' (hlt n hn)]
      · rintro ⟨offset, hoffset, hread⟩
        obtain ⟨n, hn, rfl⟩ := List.mem_map.mp hoffset
        rw [intAuto_hex, Option.some.injEq, Int.natCast_inj] at hread
        exact ⟨n, hn, by rw [hread, UInt64.ofNat_toNat]⟩
    have hcategories : ∀ category, category ∈ g.instrCategories ↔
        ∃ c ∈ selector.instructionCategories, instrCategory c = category := by
      intro category
      rw [hparsed.categories, List.mem_map]
    have hrequested : g.categoryFilterRequested = true ↔ selector.instructionCategories ≠ [] := by
      rw [hparsed.requested, decide_eq_true_eq]
    have hwarps := warpMask_iff hparsed hmask hsingle
    have hlaunchId := launchId_eq hparsed hlaunch hsentinel
    refine ⟨hparsed.valid, hpcs, hrequested, hcategories, hlaunchId, fun warp _ => hwarps warp,
      fun md => (haccepted md).mpr ⟨hsentinel, hfits⟩, ?_, ?_⟩
    · intro category pc
      rw [TraceSelection.traceInstructionSelected, Bool.and_eq_true]
      apply and_congr
      · rw [TraceSelection.shouldInstrumentTraceCategory, Bool.or_eq_true, Bool.not_eq_true',
          List.contains_eq_mem, decide_eq_true_eq, hcategories]
        apply or_congr_left
        rw [← Bool.not_eq_true, hrequested, not_not]
      · rw [TraceSelection.shouldInstrumentTracePc, hparsed.valid, Bool.true_and, Bool.or_eq_true,
          List.contains_eq_mem, decide_eq_true_eq, hpcs]
        apply or_congr_left
        rw [hparsed.pcs]
        simp
    · intro launch t launchId
      rw [Device.traceRecordSelected_iff]
      apply and_congr
      · rw [SelectsLaunch, ← hlaunchId]
        split_ifs with h
        · simp [h]
        · simp [h, ← UInt64.toNat_inj]
      · rw [← hwarps]
        refine imp_congr_right fun _ => and_iff_right_of_imp fun hbit => ?_
        by_contra hge
        have hpow : 2 ^ 32 ≤ 2 ^ t.warp.toNat := Nat.pow_le_pow_right (by decide) (by omega)
        have hmaskLt := g.warpMask.toNat_lt
        rw [Nat.testBit_lt_two_pow (by omega)] at hbit
        cases hbit

end Conveyed

/-- For every accepted trace spec, the selectors that a capture puts into the environment hold
in the tool as they were meant, and its metadata is accepted, unless the launch is the number
that stands for all launches or an inherited analysis forces another mode. -/
theorem trace_selectors_conveyed {files : Files} {spec : ExperimentSpec} {options : TraceOptions}
    {resolved : Option String} {cutracerSo attemptDir : String} {baseEnv env : Env}
    (hspec : validateTraceRuntimeSpec spec = .ok options) (hbase : NoTraceVariables baseEnv)
    (henv : traceCaptureEnv files spec options resolved cutracerSo attemptDir baseEnv = .ok env) :
    ∃ offsets modes expected, tracePcOffsets files spec options resolved = .ok offsets ∧
      effectiveInstrumentModes options = .ok modes ∧
      expectedTargetingMetadata files spec options resolved = .ok expected ∧
      (Conveyed options.selector offsets modes expected (initConfigFromEnv env) ↔
        options.selector.launchId ≠ some uint64Max ∧
          FitsModes (baseEnv.getVarStr "CUTRACER_ANALYSIS" "") modes) := by
  have hruntime := validateTraceRuntimeSpec_ok hspec
  obtain ⟨pcs, modes, mask, hsorted, hlt, hoffsets, hmodes, hmask, hparsed⟩ :=
    parse_captureEnv hruntime hbase henv
  exact ⟨pcs.map hex, modes, expectedFields options.selector pcs, hoffsets, hmodes,
    expectedTargetingMetadata_eq hoffsets hmask,
    conveyed_iff hparsed hsorted hlt (effectiveInstrumentModes_sublist hruntime.mode hmodes) hmask
      hruntime.launch hruntime.single⟩

/-! ### A launch and two offsets -/

def launchOptions (launchId : ℤ) : TraceOptions where
  mode := .regTrace
  traceSizeLimitMb := 1024
  selector := ⟨none, some launchId, some 3, none, ["0x20", "16"], [.sync, .mma], none⟩
  configArtifact := none
  instrumentModes := []

def launchSpec (launchId : ℤ) : ExperimentSpec where
  experimentId := "e"
  sessionId := "s"
  phase := .followup
  kind := .regTrace
  unit := ⟨"u", ["prog"], "", "", "", "", "r", some ⟨"gemm", "c0", none⟩, none, [], []⟩
  roundIndex := 1
  discovery := none
  sanitizerTool := none
  stress := none
  trace := some (launchOptions launchId)
  reduction := none

def noFiles : Files where
  localPath _ := .error (.file "none")
  load _ := .error (.file "none")

def launchEnv (launchId : ℤ) : Except OffsetError Env :=
  traceCaptureEnv noFiles (launchSpec launchId) (launchOptions launchId) none "cutracer.so" "/out"
    fun _ => none

theorem launchEnv_isOk : (launchEnv 7).isOk = true ∧ (launchEnv uint64Max).isOk = true := by
  constructor <;> rfl

theorem launchSpec_accepted : validateTraceRuntimeSpec (launchSpec 7) = .ok (launchOptions 7) ∧
    validateTraceRuntimeSpec (launchSpec uint64Max) = .ok (launchOptions uint64Max) := by
  constructor <;> rfl

theorem isOk_iff {ε α : Type} {x : Except ε α} : x.isOk = true ↔ ∃ a, x = .ok a := by
  cases x with
  | error e => simp [Except.isOk, Except.toBool]
  | ok a => simp [Except.isOk, Except.toBool]

theorem trace_selectors_conveyed_seven : ∃ env offsets modes expected, launchEnv 7 = .ok env ∧
    tracePcOffsets noFiles (launchSpec 7) (launchOptions 7) none = .ok offsets ∧
      effectiveInstrumentModes (launchOptions 7) = .ok modes ∧
      expectedTargetingMetadata noFiles (launchSpec 7) (launchOptions 7) none = .ok expected ∧
      Conveyed (launchOptions 7).selector offsets modes expected (initConfigFromEnv env) := by
  obtain ⟨env, henv⟩ := isOk_iff.mp launchEnv_isOk.1
  obtain ⟨offsets, modes, expected, hoffsets, hmodes, hexpected, hconveyed⟩ :=
    trace_selectors_conveyed launchSpec_accepted.1 (fun _ _ => rfl) henv
  refine ⟨env, offsets, modes, expected, henv, hoffsets, hmodes, hexpected, hconveyed.mpr ⟨?_, ?_⟩⟩
  · decide
  · have hnone : Device.forcedTypes "" = [] := rfl
    intro type htype
    rw [Env.getVarStr, Option.getD_none, hnone] at htype
    cases htype

/-- The last launch number is accepted, but the tool takes it for all launches. -/
theorem trace_selectors_all_launches : ∃ env offsets modes expected,
    validateTraceRuntimeSpec (launchSpec uint64Max) = .ok (launchOptions uint64Max) ∧
      launchEnv uint64Max = .ok env ∧
      tracePcOffsets noFiles (launchSpec uint64Max) (launchOptions uint64Max) none = .ok offsets ∧
      effectiveInstrumentModes (launchOptions uint64Max) = .ok modes ∧
      expectedTargetingMetadata noFiles (launchSpec uint64Max) (launchOptions uint64Max) none =
        .ok expected ∧
      (initConfigFromEnv env).launchId = Device.allLaunches ∧
      ¬Conveyed (launchOptions uint64Max).selector offsets modes expected (initConfigFromEnv env) := by
  obtain ⟨env, henv⟩ := isOk_iff.mp launchEnv_isOk.2
  have hruntime := validateTraceRuntimeSpec_ok launchSpec_accepted.2
  obtain ⟨pcs, modes, mask, hsorted, hlt, hoffsets, hmodes, hmask, hparsed⟩ :=
    parse_captureEnv hruntime (fun _ _ => rfl) henv
  refine ⟨env, _, modes, _, launchSpec_accepted.2, henv, hoffsets, hmodes,
    expectedTargetingMetadata_eq hoffsets hmask, hparsed.launch, fun hconveyed => ?_⟩
  have hsublist := effectiveInstrumentModes_sublist hruntime.mode hmodes
  exact ((conveyed_iff hparsed hsorted hlt hsublist hmask hruntime.launch hruntime.single).mp
    hconveyed).1 rfl

end CuTracer.Trace
