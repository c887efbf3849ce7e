import CuTracer.Device.Env
import CuTracer.Device.Launch
import CuTracer.Library.Json
import Mathlib.Data.List.Infix
import Mathlib.Data.List.Sort

/-! The selectors of a targeted trace: how the tool reads them from its environment, which
records they admit, and how the metadata of a kernel reports them. -/

namespace CuTracer.Device

open Json (setField)

inductive InstrumentType where
  | opcodeOnly | regTrace | memAddrTrace | memValueTrace | randomDelay | tmaTrace
  deriving DecidableEq

/-- `instrument_type_to_name`. -/
def InstrumentType.name : InstrumentType → String
  | .opcodeOnly => "opcode_only"
  | .regTrace => "reg_trace"
  | .memAddrTrace => "mem_addr_trace"
  | .memValueTrace => "mem_value_trace"
  | .randomDelay => "random_delay"
  | .tmaTrace => "tma_trace"

inductive InstrCategory where
  | none | mma | tma | sync
  deriving DecidableEq

/-- What the selectors set; 2^64 - 1 is no launch, zero no warp mask. -/
structure TraceSelection where
  enabledInstrumentTypes : List InstrumentType
  categoryFilterRequested : Bool
  instrCategories : List InstrCategory
  launchId : UInt64
  warpMask : UInt32
  pcOffsets : List UInt64
  pcFilterValid : Bool
  deriving DecidableEq

/-- `UINT64_MAX`. -/
def allLaunches : UInt64 := UInt64.ofNat (2 ^ 64 - 1)

/-! ### Reading the environment -/

/-- `text.find(pattern) != npos`. -/
def finds (text pattern : String) : Bool := decide (pattern.toList <:+: text.toList)

variable (text : String)

def initInstrumentation : List InstrumentType :=
  [.opcodeOnly, .regTrace, .memAddrTrace, .memValueTrace, .randomDelay, .tmaTrace].filter
    fun type => finds text type.name

def addEnabledInstrumentType (enabled : List InstrumentType) (type : InstrumentType) :
    List InstrumentType :=
  if type ∈ enabled then enabled else enabled ++ [type]

def forcedTypes : List InstrumentType :=
  [("proton_instr_histogram", InstrumentType.opcodeOnly), ("deadlock_detection", .regTrace),
    ("random_delay", .randomDelay)].filterMap fun (analysis, type) =>
      if finds text analysis then some type else none

def initAnalysis (enabled : List InstrumentType) : List InstrumentType :=
  (forcedTypes text).foldl addEnabledInstrumentType enabled

/-- A token without the blanks around it. -/
def trim (token : List Char) : List Char :=
  ((token.dropWhile Strtol.isSpace).reverse.dropWhile Strtol.isSpace).reverse

/-- The tokens between commas. `std::getline` gives no empty token at the end, but the
empty ones are skipped. -/
def tokens : List (List Char) := (text.toList.splitOn ',').map trim

/-- The offsets of some tokens; one that is no number, or more than 32 offsets, make the
filter invalid. -/
def insertPcOffsets : List UInt64 → List (List Char) → List UInt64 × Bool
  | offsets, [] => (offsets, true)
  | offsets, token :: rest =>
    if token = [] then insertPcOffsets offsets rest
    else
      match Strtol.strtoull 0 token with
      | some (pc, []) =>
        if 32 < (offsets.insert pc).length then ([], false)
        else insertPcOffsets (offsets.insert pc) rest
      | _ => ([], false)

def parseTracePcOffsets : List UInt64 × Bool := insertPcOffsets [] (tokens text)

def categoryOfToken (token : List Char) : Option InstrCategory :=
  let token := token.map Char.toLower
  if token = ['m', 'm', 'a'] then some .mma
  else if token = ['t', 'm', 'a'] then some .tma
  else if token = ['s', 'y', 'n', 'c'] then some .sync
  else none

/-- `init_trace_instr_categories`: whether a filter was requested, and its categories. -/
def initTraceInstrCategories : Bool × List InstrCategory :=
  (text ≠ "", (tokens text).filterMap categoryOfToken)

/-- What `init_config_from_env` makes of the selectors. -/
def initConfigFromEnv (env : Env) : TraceSelection :=
  let enabled := initInstrumentation (env.getVarStr "CUTRACER_INSTRUMENT" "")
  let enabled := initAnalysis (env.getVarStr "CUTRACER_ANALYSIS" "") enabled
  let categories := initTraceInstrCategories (env.getVarStr "CUTRACER_TRACE_INSTR_CATEGORIES" "")
  let launchId := env.getVarUInt64 "CUTRACER_TRACE_LAUNCH_ID" allLaunches
  let warpMask := env.getVarUInt32Auto "CUTRACER_TRACE_WARP_MASK" 0
  let pcs := parseTracePcOffsets (env.getVarStr "CUTRACER_TRACE_PC_OFFSETS" "")
  ⟨enabled, categories.1, categories.2, launchId, warpMask, pcs.1, pcs.2⟩

/-! ### Filters -/

namespace TraceSelection

variable {launch : Launch}

def shouldInstrumentTracePc (g : TraceSelection) (pcOffset : UInt64) : Bool :=
  g.pcFilterValid && (g.pcOffsets.isEmpty || g.pcOffsets.contains pcOffset)

def shouldInstrumentTraceCategory (g : TraceSelection) (category : InstrCategory) : Bool :=
  !g.categoryFilterRequested || g.instrCategories.contains category

def traceInstructionSelected (g : TraceSelection) (category : InstrCategory) (pcOffset : UInt64) :
    Bool :=
  g.shouldInstrumentTraceCategory category && g.shouldInstrumentTracePc pcOffset

end TraceSelection

def localWarpId {launch : Launch} (t : Thread launch) : UInt32 :=
  let x (n : ℕ) := UInt32.ofNat n
  (x t.index.x + x launch.block.x * (x t.index.y + x launch.block.y * x t.index.z)) / 32

def traceRecordSelected {launch : Launch} (kernelLaunchId launchFilter : UInt64) (warpMask : UInt32)
    (t : Thread launch) : Bool :=
  if launchFilter ≠ allLaunches ∧ kernelLaunchId ≠ launchFilter then false
  else if warpMask = 0 then true
  else decide (localWarpId t < 32) && decide (warpMask &&& (1 <<< localWarpId t) ≠ 0)

/-! ### Metadata -/

namespace TraceSelection

variable (g : TraceSelection)

def categoriesJson : Json :=
  if g.categoryFilterRequested then
    .arr ([(InstrCategory.mma, "mma"), (.tma, "tma"), (.sync, "sync")].filterMap fun (category, name) =>
      if g.instrCategories.contains category then some (.str name) else none)
  else .null

def launchJson : Json := if g.launchId = allLaunches then .null else .int g.launchId.toNat

def warpMaskJson : Json := if g.warpMask = 0 then .null else .int g.warpMask.toNat

def pcOffsetsJson : Json :=
  if g.pcOffsets.isEmpty then .null
  else .arr (((g.pcOffsets.map UInt64.toNat).insertionSort (· ≤ ·)).map fun pc : ℕ => .int pc)

/-- The fields of the selectors that `build_kernel_metadata_json` sets. -/
def buildKernelMetadataJson (md : List (String × Json)) : List (String × Json) :=
  let md := setField "instrument_modes"
    (.arr (g.enabledInstrumentTypes.map fun type => .str type.name)) md
  let md := setField "trace_instr_categories" g.categoriesJson md
  let md := setField "trace_launch_id" g.launchJson md
  let md := setField "trace_warp_mask" g.warpMaskJson md
  let md := setField "trace_pc_offsets" g.pcOffsetsJson md
  setField "trace_pc_filter_valid" (.bool g.pcFilterValid) md

end TraceSelection

/-! ### What is read back -/

section Read

theorem trim_eq {token : List Char} (h : ∀ c ∈ token, Strtol.isSpace c = false) : trim token = token := by
  have hdrop : ∀ cs : List Char, (∀ c ∈ cs, Strtol.isSpace c = false) →
      cs.dropWhile Strtol.isSpace = cs := by
    intro cs hcs
    cases cs with
    | nil => rfl
    | cons c cs => simp [hcs c List.mem_cons_self]
  rw [trim, hdrop token h, hdrop _ fun c hc => h c (List.mem_reverse.mp hc), List.reverse_reverse]

theorem tokens_intercalate {texts : List String} (hne : texts ≠ [])
    (h : ∀ text ∈ texts, ∀ c ∈ text.toList, c ≠ ',' ∧ Strtol.isSpace c = false) :
    tokens (",".intercalate texts) = texts.map String.toList := by
  have hcomma : ∀ l ∈ texts.map String.toList, ',' ∉ l := by
    intro l hl hmem
    obtain ⟨text, htext, rfl⟩ := List.mem_map.mp hl
    exact (h text htext ',' hmem).1 rfl
  rw [tokens, String.toList_intercalate]
  change ((([',']).intercalate (texts.map String.toList)).splitOn ',').map trim = _
  rw [List.splitOn_intercalate ',' hcomma (by simpa using hne), List.map_map]
  apply List.map_congr_left
  intro text htext
  exact trim_eq fun c hc => (h text htext c hc).2

/-- Different numbers, at most 32, are all inserted. -/
theorem insertPcOffsets_numbers {ts : List (List Char)} {pcs offsets : List UInt64}
    (h : List.Forall₂ (fun t pc => Strtol.strtoull 0 t = some (pc, [])) ts pcs)
    (hnodup : (pcs ++ offsets).Nodup) (hlength : (pcs ++ offsets).length ≤ 32) :
    insertPcOffsets offsets ts = (pcs.reverse ++ offsets, true) := by
  induction h generalizing offsets with
  | nil => rfl
  | @cons t pc ts pcs ht _ ih =>
    have hne : t ≠ [] := by
      rintro rfl
      cases ht
    simp only [List.cons_append, List.nodup_cons, List.length_cons, List.mem_append, not_or] at hnodup hlength
    have hinsert : offsets.insert pc = pc :: offsets := List.insert_of_not_mem hnodup.1.2
    have hmiddle : (pcs ++ pc :: offsets).Nodup := by
      rw [List.nodup_middle]
      simpa using hnodup
    rw [List.length_append] at hlength
    simp only [insertPcOffsets, hne, if_false, ht, hinsert]
    rw [if_neg (by rw [List.length_cons]; omega), ih hmiddle (by simp; omega)]
    simp

theorem parseTracePcOffsets_empty : parseTracePcOffsets "" = ([], true) := by decide +kernel

variable {launch : Launch}

theorem localWarpId_eq (t : Thread launch) : localWarpId t = t.warp := by
  have hid : localWarpId t = t.linearId / 32 := by
    simp only [localWarpId, Thread.linearId]
    rw [UInt32.add_comm (UInt32.ofNat t.index.x), UInt32.mul_comm (UInt32.ofNat launch.block.x),
      UInt32.add_comm (UInt32.ofNat t.index.y), UInt32.mul_comm (UInt32.ofNat launch.block.y)]
  rw [hid, Thread.warp, ← UInt32.toNat_inj, UInt32.toNat_div, UInt32.toNat_shiftRight]
  exact (Nat.shiftRight_eq_div_pow _ 5).symm

theorem traceRecordSelected_iff {id filter : UInt64} {mask : UInt32} {t : Thread launch} :
    traceRecordSelected id filter mask t = true ↔ (filter ≠ allLaunches → id = filter) ∧
      (mask ≠ 0 → t.warp.toNat < 32 ∧ mask.toNat.testBit t.warp.toNat = true) := by
  unfold traceRecordSelected
  rw [localWarpId_eq]
  by_cases hlaunch : filter ≠ allLaunches ∧ id ≠ filter
  · simp [hlaunch]
  · have hselected : filter ≠ allLaunches → id = filter := by
      intro hfilter
      by_contra hid
      exact hlaunch ⟨hfilter, hid⟩
    rw [if_neg hlaunch]
    by_cases hmask : mask = 0
    · simpa [hmask] using hselected
    · simp only [hmask, if_false, Bool.and_eq_true, decide_eq_true_eq, not_false_eq_true, ne_eq,
        forall_const]
      refine ⟨fun ⟨hlt, hbit⟩ => ⟨hselected, UInt32.lt_iff_toNat_lt.mp hlt, ?_⟩,
        fun ⟨_, hlt, hbit⟩ => ⟨UInt32.lt_iff_toNat_lt.mpr hlt, ?_⟩⟩
      · exact (and_shiftLeft_one mask t.warp (UInt32.lt_iff_toNat_lt.mp hlt)).mp hbit
      · exact (and_shiftLeft_one mask t.warp hlt).mpr hbit

theorem field_metadata (g : TraceSelection) (md : List (String × Json)) (key : String) :
    Json.field (g.buildKernelMetadataJson md) key =
      if key = "trace_pc_filter_valid" then some (.bool g.pcFilterValid)
      else if key = "trace_pc_offsets" then some g.pcOffsetsJson
      else if key = "trace_warp_mask" then some g.warpMaskJson
      else if key = "trace_launch_id" then some g.launchJson
      else if key = "trace_instr_categories" then some g.categoriesJson
      else if key = "instrument_modes" then
        some (.arr (g.enabledInstrumentTypes.map fun type => .str type.name))
      else Json.field md key := by
  simp only [TraceSelection.buildKernelMetadataJson, Json.field_setField]

end Read

end CuTracer.Device
