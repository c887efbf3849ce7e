import CuTracer.Capture.Deadlock
import CuTracer.Capture.Records
import CuTracer.Library.Dict
import Mathlib.Algebra.BigOperators.Group.Finset.Basic

/-! Instruction histograms in the receive loop. A warp counts mnemonics between a clock
instruction that starts a region and the one that ends it. The warps' states belong to the
launch of the last record: when a record of another launch comes, the histograms go to a file
under the last launch and the state of that launch is taken out of the table. What the file
gets is therefore the histograms of the records up to the first one of another launch behind
the launch's first clock; later records of the launch find no state and are skipped. -/

namespace CuTracer.Capture.Histogram

open Records (OpcodeOnly)
open Deadlock (extractInstructionName)

/-! ### A warp -/

abbrev SassMap := Dict Int32 (List Char)

/-- A line with both `CS2R` and `SR_CLOCKLO`. -/
def isClockSass (sass : List Char) : Bool :=
  decide ("CS2R".toList <:+: sass) && decide ("SR_CLOCKLO".toList <:+: sass)

/-- The ids of the clock instructions, as instrumentation collects them. -/
def clockOpcodeIds (sassMap : SassMap) : List Int32 :=
  (sassMap.filter fun _ sass => isClockSass sass).keys

/-- A histogram is the multiset of the names it counts. -/
structure WarpState where
  isCollecting : Bool := false
  regionCounter : ℕ := 0
  histogram : Multiset (List Char) := 0

structure RegionHistogram where
  warpId : Int32
  regionId : ℕ
  histogram : Multiset (List Char)

/-- A clock starts or ends a region; the second component is the region it completed. -/
def WarpState.clock (warpId : Int32) (s : WarpState) : WarpState × List RegionHistogram :=
  if s.isCollecting then
    if s.histogram = 0 then ({ s with isCollecting := false }, [])
    else
      ({ isCollecting := false, regionCounter := s.regionCounter + 1, histogram := 0 },
        [⟨warpId, s.regionCounter, s.histogram⟩])
  else ({ s with isCollecting := true }, [])

/-- The instruction is counted where the warp is collecting and its line is known. -/
def WarpState.count (sassMap : SassMap) (opcodeId : Int32) (s : WarpState) : WarpState :=
  match s.isCollecting, sassMap.get? opcodeId with
  | true, some sass => { s with histogram := extractInstructionName sass ::ₘ s.histogram }
  | _, _ => s

def WarpState.process (sassMap : SassMap) (warpId opcodeId : Int32) (s : WarpState) :
    WarpState × List RegionHistogram :=
  if opcodeId ∈ clockOpcodeIds sassMap then
    ((s.clock warpId).1.count sassMap opcodeId, (s.clock warpId).2)
  else (s.count sassMap opcodeId, [])

/-- The region a warp is still collecting when its launch is dumped. -/
def WarpState.remaining (warpId : Int32) (s : WarpState) : List RegionHistogram :=
  if s.isCollecting && s.histogram ≠ 0 then [⟨warpId, s.regionCounter, s.histogram⟩] else []

/-! ### The receive loop -/

/-- The functions of the launches that are not yet dumped, and what `dump_histograms_to_csv` got.
No launch has the id `UINT64_MAX`, so that no last launch is `none`. -/
structure State where
  lastSeenKernelLaunchId : Option UInt64 := none
  warpStates : Dict Int32 WarpState := .empty
  completedHistograms : List RegionHistogram := []
  kernelLaunchToFunc : Dict UInt64 UInt64
  csv : List (UInt64 × List RegionHistogram) := []

/-- The lines of a function's instructions. -/
abbrev CtxState := Dict UInt64 SassMap

def processInstructionHistogram (ctx : CtxState) (ri : OpcodeOnly) (s : State) : State :=
  match (s.kernelLaunchToFunc.get? ri.kernelLaunchId).bind ctx.get? with
  | none => s
  | some sassMap =>
    if clockOpcodeIds sassMap = [] then s
    else
      let current := (s.warpStates.get? ri.warpId).getD {}
      { s with
        warpStates := s.warpStates.insert ri.warpId (current.process sassMap ri.warpId ri.opcodeId).1
        completedHistograms :=
          s.completedHistograms ++ (current.process sassMap ri.warpId ri.opcodeId).2 }

/-- The completed histograms, and those of the warps that were still collecting. -/
def State.histograms (s : State) : List RegionHistogram :=
  s.completedHistograms ++ s.warpStates.entries.flatMap fun e => e.2.remaining e.1

/-- The dump consumes the state of its launch. -/
def dumpPreviousKernelData (kernelLaunchId : UInt64) (histograms : List RegionHistogram) (s : State) :
    State :=
  if histograms = [] then s
  else
    match s.kernelLaunchToFunc.get? kernelLaunchId with
    | none => s
    | some _ =>
      { s with
        kernelLaunchToFunc := s.kernelLaunchToFunc.filter fun id _ => id ≠ kernelLaunchId
        csv := s.csv ++ [(kernelLaunchId, histograms)] }

/-- The record of another launch than the last one dumps the last one. -/
def kernelBoundary (currentLaunchId : UInt64) (s : State) : State :=
  match s.lastSeenKernelLaunchId with
  | none => { s with lastSeenKernelLaunchId := some currentLaunchId }
  | some previous =>
    if currentLaunchId = previous then s
    else
      { dumpPreviousKernelData previous s.histograms s with
        lastSeenKernelLaunchId := some currentLaunchId
        warpStates := .empty
        completedHistograms := [] }

def step (ctx : CtxState) (s : State) (ri : OpcodeOnly) : State :=
  processInstructionHistogram ctx ri (kernelBoundary ri.kernelLaunchId s)

/-- The dump behind the last record. -/
def finalDump (s : State) : State :=
  match s.lastSeenKernelLaunchId with
  | none => s
  | some last => dumpPreviousKernelData last s.histograms s

def recvThread (ctx : CtxState) (launches : Dict UInt64 UInt64) (stream : List OpcodeOnly) : State :=
  finalDump (stream.foldl (step ctx) { kernelLaunchToFunc := launches })

/-- The regions and histograms that were dumped for a warp of a launch. -/
def State.rows (s : State) (launch : UInt64) (warp : Int32) : List (ℕ × Multiset (List Char)) :=
  ((s.csv.filter fun d => d.1 = launch).flatMap fun d => d.2.filter fun h => h.warpId = warp).map
    fun h => (h.regionId, h.histogram)

/-! ### The regions of a record sequence -/

section Regions

variable (sassMap : SassMap)

def clocks (ops : List Int32) : ℕ := ops.countP (· ∈ clockOpcodeIds sassMap)

/-- The instructions of a region behind `seen` clocks: from its first clock, the `2r`-th, to
its second, the `(2r+1)`-th. -/
def regionFrom (r : ℕ) : ℕ → List Int32 → List Int32
  | _, [] => []
  | seen, op :: ops =>
    let seen := if op ∈ clockOpcodeIds sassMap then seen + 1 else seen
    (if seen = 2 * r + 1 then [op] else []) ++ regionFrom r seen ops

def region (r : ℕ) (ops : List Int32) : List Int32 := regionFrom sassMap r 0 ops

/-- The mnemonics of the instructions whose lines are known. -/
def mnemonics (ops : List Int32) : List (List Char) :=
  ops.filterMap fun op => (sassMap.get? op).map extractInstructionName

/-- A region for each clock that starts one, with the counts of its mnemonics. -/
def regionRow (ops : List Int32) (r : ℕ) : ℕ × Multiset (List Char) :=
  (r, mnemonics sassMap (region sassMap r ops))

def regionRows (ops : List Int32) : List (ℕ × Multiset (List Char)) :=
  (List.range ((clocks sassMap ops + 1) / 2)).map (regionRow sassMap ops)

/-- The instruction that comes next lies in a region and is counted there. -/
def Counted (ops : List Int32) (op : Int32) : Prop :=
  clocks sassMap (ops ++ [op]) % 2 = 1 ∧ (sassMap.get? op).isSome

instance (ops : List Int32) (op : Int32) : Decidable (Counted sassMap ops op) := by
  unfold Counted; infer_instance

theorem clocks_concat (ops : List Int32) (op : Int32) :
    clocks sassMap (ops ++ [op]) =
      clocks sassMap ops + if op ∈ clockOpcodeIds sassMap then 1 else 0 := by
  simp [clocks, List.countP_append, List.countP_singleton]

theorem regionFrom_concat (r seen : ℕ) (ops : List Int32) (op : Int32) :
    regionFrom sassMap r seen (ops ++ [op]) =
      regionFrom sassMap r seen ops ++
        if seen + clocks sassMap (ops ++ [op]) = 2 * r + 1 then [op] else [] := by
  induction ops generalizing seen with
  | nil =>
    by_cases h : op ∈ clockOpcodeIds sassMap <;> simp [regionFrom, clocks, h]
  | cons o ops ih =>
    have hseen : (if o ∈ clockOpcodeIds sassMap then seen + 1 else seen) +
        clocks sassMap (ops ++ [op]) = seen + clocks sassMap (o :: ops ++ [op]) := by
      by_cases h : o ∈ clockOpcodeIds sassMap
      · simp [clocks, h]; omega
      · simp [clocks, h]
    rw [List.cons_append, regionFrom, ih, regionFrom, hseen, List.append_assoc, List.cons_append]

theorem region_concat (r : ℕ) (ops : List Int32) (op : Int32) :
    region sassMap r (ops ++ [op]) =
      region sassMap r ops ++ if clocks sassMap (ops ++ [op]) = 2 * r + 1 then [op] else [] := by
  unfold region
  rw [regionFrom_concat, Nat.zero_add]

theorem clocks_le_concat (ops : List Int32) (op : Int32) :
    clocks sassMap ops ≤ clocks sassMap (ops ++ [op]) := by
  rw [clocks_concat]; omega

/-- A region is empty until the clock that starts it. -/
theorem region_of_lt {r : ℕ} {ops : List Int32} (h : clocks sassMap ops < 2 * r + 1) :
    region sassMap r ops = [] := by
  induction ops using List.reverseRecOn with
  | nil => rfl
  | append_singleton ops op ih =>
    rw [region_concat, ih (by have := clocks_le_concat sassMap ops op; omega), if_neg (by omega)]
    rfl

theorem mnemonics_append (as bs : List Int32) :
    mnemonics sassMap (as ++ bs) = mnemonics sassMap as ++ mnemonics sassMap bs :=
  List.filterMap_append

theorem mnemonics_singleton (op : Int32) :
    mnemonics sassMap [op] = ((sassMap.get? op).map extractInstructionName).toList := by
  unfold mnemonics
  cases h : sassMap.get? op <;> simp [h]

/-- A clock has a line, as the ids are collected from the lines. -/
theorem get?_of_mem_clockOpcodeIds {op : Int32} (h : op ∈ clockOpcodeIds sassMap) :
    ∃ sass, sassMap.get? op = some sass := by
  obtain ⟨sass, hsass, -⟩ := Dict.mem_keys_filter.mp h
  exact ⟨sass, hsass⟩

/-- Only the region that is being collected changes with the next instruction. -/
theorem regionRow_concat {ops : List Int32} {op : Int32} {r : ℕ}
    (h : clocks sassMap (ops ++ [op]) ≠ 2 * r + 1) :
    regionRow sassMap (ops ++ [op]) r = regionRow sassMap ops r := by
  rw [regionRow, region_concat, if_neg h, List.append_nil, regionRow]

theorem region_ne_nil {r : ℕ} {ops : List Int32} (h : clocks sassMap ops = 2 * r + 1) :
    mnemonics sassMap (region sassMap r ops) ≠ [] := by
  induction ops using List.reverseRecOn with
  | nil => simp [clocks] at h
  | append_singleton ops op ih =>
    rw [region_concat, if_pos h, mnemonics_append]
    rw [clocks_concat] at h
    by_cases hop : op ∈ clockOpcodeIds sassMap
    · obtain ⟨sass, hsass⟩ := get?_of_mem_clockOpcodeIds sassMap hop
      simp [mnemonics_singleton, hsass]
    · rw [if_neg hop, Nat.add_zero] at h
      exact List.append_ne_nil_of_left_ne_nil (ih h) _

theorem region_append (r : ℕ) (ops more : List Int32) :
    ∃ tail, region sassMap r (ops ++ more) = region sassMap r ops ++ tail := by
  induction more using List.reverseRecOn with
  | nil => exact ⟨[], by rw [List.append_nil, List.append_nil]⟩
  | append_singleton more op ih =>
    obtain ⟨tail, htail⟩ := ih
    rw [← List.append_assoc, region_concat, htail, List.append_assoc]
    exact ⟨_, rfl⟩

/-- An instruction that is not counted changes no row. -/
theorem regionRows_concat {ops : List Int32} {op : Int32} (h : ¬Counted sassMap ops op) :
    regionRows sassMap (ops ++ [op]) = regionRows sassMap ops := by
  have hclocks := clocks_concat sassMap ops op
  by_cases hodd : clocks sassMap (ops ++ [op]) % 2 = 1
  · have hnone : sassMap.get? op = none := by
      simpa [Counted, hodd] using h
    have hop : op ∉ clockOpcodeIds sassMap := by
      intro hop
      obtain ⟨sass, hsass⟩ := get?_of_mem_clockOpcodeIds sassMap hop
      simp [hsass] at hnone
    rw [if_neg hop, Nat.add_zero] at hclocks
    unfold regionRows
    rw [hclocks]
    apply List.map_congr_left
    intro r _
    rw [regionRow, region_concat, regionRow]
    split_ifs
    · rw [mnemonics_append, mnemonics_singleton, hnone, Option.map_none, Option.toList_none,
        List.append_nil]
    · rw [List.append_nil]
  · unfold regionRows
    have hrange : (clocks sassMap (ops ++ [op]) + 1) / 2 = (clocks sassMap ops + 1) / 2 := by
      split_ifs at hclocks <;> omega
    rw [hrange]
    apply List.map_congr_left
    intro r _
    exact regionRow_concat sassMap (by omega)

/-- After an instruction that is counted, the rows differ from those of any time before. -/
theorem regionRows_ne_of_counted {ops more : List Int32} {op : Int32}
    (h : Counted sassMap (ops ++ more) op) (rest : List Int32) :
    regionRows sassMap (ops ++ more ++ [op] ++ rest) ≠ regionRows sassMap ops := by
  obtain ⟨hodd, hsome⟩ := h
  obtain ⟨sass, hsass⟩ := Option.isSome_iff_exists.mp hsome
  obtain ⟨r, hr⟩ : ∃ r, clocks sassMap (ops ++ more ++ [op]) = 2 * r + 1 :=
    ⟨clocks sassMap (ops ++ more ++ [op]) / 2, by omega⟩
  intro heq
  have hclocks : clocks sassMap (ops ++ more ++ [op]) ≤ clocks sassMap (ops ++ more ++ [op] ++ rest) :=
    List.Sublist.countP_le (List.sublist_append_left _ _)
  have hlength : (clocks sassMap (ops ++ more ++ [op] ++ rest) + 1) / 2 =
      (clocks sassMap ops + 1) / 2 := by
    simpa [regionRows] using congrArg List.length heq
  have hrow : regionRow sassMap (ops ++ more ++ [op] ++ rest) r = regionRow sassMap ops r := by
    unfold regionRows at heq
    rw [hlength] at heq
    exact List.map_inj_left.mp heq r (List.mem_range.mpr (by omega))
  -- the region of the instruction has grown
  obtain ⟨tail, htail⟩ := region_append sassMap r (ops ++ more ++ [op]) rest
  obtain ⟨grown, hgrown⟩ := region_append sassMap r ops more
  rw [regionRow, regionRow, htail, region_concat, if_pos hr, hgrown] at hrow
  have hcard := congrArg Multiset.card (Prod.mk.inj hrow).2
  simp only [mnemonics_append, mnemonics_singleton, hsass, Multiset.coe_card, List.length_append,
    Option.map_some, Option.toList_some, List.length_singleton] at hcard
  omega

/-! ### What a warp has counted -/

/-- The state of a warp and its completed regions after its instructions. -/
structure Reflects (ops : List Int32) (s : WarpState) (completed : List (ℕ × Multiset (List Char))) :
    Prop where
  isCollecting : s.isCollecting = decide (clocks sassMap ops % 2 = 1)
  regionCounter : s.regionCounter = clocks sassMap ops / 2
  histogram : (s.regionCounter, s.histogram) = regionRow sassMap ops s.regionCounter
  completed : completed = (List.range s.regionCounter).map (regionRow sassMap ops)

def RegionHistogram.row (h : RegionHistogram) : ℕ × Multiset (List Char) := (h.regionId, h.histogram)

theorem Reflects.of_no_clocks {ops : List Int32} (h : clocks sassMap ops = 0) :
    Reflects sassMap ops {} [] := by
  refine ⟨by simp [h], by simp [h], ?_, rfl⟩
  rw [regionRow, region_of_lt sassMap (by omega)]
  rfl

variable {sassMap} {ops : List Int32} {s : WarpState} {completed : List (ℕ × Multiset (List Char))}

variable (h : Reflects sassMap ops s completed)

include h in
/-- The completed regions do not change with the next instruction. -/
theorem Reflects.completed_concat (op : Int32) :
    completed = (List.range s.regionCounter).map (regionRow sassMap (ops ++ [op])) := by
  rw [h.completed]
  apply List.map_congr_left
  intro r hr
  rw [List.mem_range, h.regionCounter] at hr
  have := clocks_le_concat sassMap ops op
  exact (regionRow_concat sassMap (by omega)).symm

include h in
theorem Reflects.count {op : Int32} (hop : op ∉ clockOpcodeIds sassMap) :
    Reflects sassMap (ops ++ [op]) (s.count sassMap op) completed := by
  have hclocks : clocks sassMap (ops ++ [op]) = clocks sassMap ops := by
    rw [clocks_concat, if_neg hop, Nat.add_zero]
  have hcompleted := h.completed_concat op
  have hcounter := h.regionCounter
  have hrow := h.histogram
  rw [regionRow, Prod.mk.injEq] at hrow
  unfold WarpState.count
  by_cases hodd : clocks sassMap ops % 2 = 1
  · have hcollecting : s.isCollecting = true := by rw [h.isCollecting, decide_eq_true hodd]
    have hregion : region sassMap s.regionCounter (ops ++ [op]) =
        region sassMap s.regionCounter ops ++ [op] := by
      rw [region_concat, if_pos (by omega)]
    rw [hcollecting]
    cases hsass : sassMap.get? op with
    | none =>
      refine ⟨by rw [hclocks, h.isCollecting], by rw [hclocks, hcounter], ?_, hcompleted⟩
      rw [regionRow, hregion, mnemonics_append, mnemonics_singleton, hsass, hrow.2]
      simp
    | some sass =>
      refine ⟨by rw [hclocks, ← h.isCollecting, hcollecting], by rw [hclocks, hcounter], ?_, hcompleted⟩
      rw [regionRow, hregion, mnemonics_append, mnemonics_singleton, hsass, hrow.2]
      simp [← Multiset.coe_add, add_comm]
  · have hcollecting : s.isCollecting = false := by rw [h.isCollecting, decide_eq_false hodd]
    rw [hcollecting]
    refine ⟨by rw [hclocks, h.isCollecting], by rw [hclocks, hcounter], ?_, hcompleted⟩
    rw [regionRow_concat sassMap (by omega)]
    exact h.histogram

include h in
theorem Reflects.clock (warpId : Int32) {op : Int32} (hop : op ∈ clockOpcodeIds sassMap) :
    Reflects sassMap (ops ++ [op]) ((s.clock warpId).1.count sassMap op)
      (completed ++ (s.clock warpId).2.map RegionHistogram.row) := by
  obtain ⟨sass, hsass⟩ := get?_of_mem_clockOpcodeIds sassMap hop
  have hclocks : clocks sassMap (ops ++ [op]) = clocks sassMap ops + 1 := by
    rw [clocks_concat, if_pos hop]
  have hcompleted := h.completed_concat op
  have hcounter := h.regionCounter
  have hrow := h.histogram
  rw [regionRow, Prod.mk.injEq] at hrow
  by_cases hodd : clocks sassMap ops % 2 = 1
  · -- the region ends: it has at least the clock that started it
    have hcollecting : s.isCollecting = true := by rw [h.isCollecting, decide_eq_true hodd]
    have hne : s.histogram ≠ 0 := by
      rw [hrow.2, Ne, Multiset.coe_eq_zero]
      exact region_ne_nil sassMap (by omega)
    have hend : s.clock warpId =
        (⟨false, s.regionCounter + 1, 0⟩, [⟨warpId, s.regionCounter, s.histogram⟩]) := by
      rw [WarpState.clock, if_pos hcollecting, if_neg hne]
    rw [hend]
    refine ⟨?_, ?_, ?_, ?_⟩
    · exact (decide_eq_false (by omega)).symm
    · show s.regionCounter + 1 = _
      omega
    · show (s.regionCounter + 1, 0) = regionRow sassMap (ops ++ [op]) (s.regionCounter + 1)
      rw [regionRow, region_of_lt sassMap (by omega)]
      rfl
    · show _ = (List.range (s.regionCounter + 1)).map _
      rw [List.range_succ, List.map_append, ← hcompleted, List.map_singleton, List.map_singleton,
        regionRow_concat sassMap (by omega), RegionHistogram.row, h.histogram]
  · have hcollecting : s.isCollecting = false := by rw [h.isCollecting, decide_eq_false hodd]
    have hstart : s.clock warpId = ({ s with isCollecting := true }, []) := by
      rw [WarpState.clock, hcollecting]
      rfl
    rw [hstart, List.map_nil, List.append_nil]
    simp only [WarpState.count, hsass]
    refine ⟨?_, ?_, ?_, hcompleted⟩
    · exact (decide_eq_true (by omega)).symm
    · show s.regionCounter = _
      omega
    · show (s.regionCounter, _) = regionRow sassMap (ops ++ [op]) s.regionCounter
      rw [regionRow, region_concat, if_pos (by omega), mnemonics_append, mnemonics_singleton, hsass,
        hrow.2]
      simp [← Multiset.coe_add, add_comm]

include h in
theorem Reflects.process (warpId op : Int32) :
    Reflects sassMap (ops ++ [op]) (s.process sassMap warpId op).1
      (completed ++ (s.process sassMap warpId op).2.map RegionHistogram.row) := by
  unfold WarpState.process
  split_ifs with hop
  · exact h.clock warpId hop
  · rw [List.map_nil, List.append_nil]
    exact h.count hop

include h in
/-- Without clock instructions nothing is collected. -/
theorem Reflects.skip (hno : clockOpcodeIds sassMap = []) (op : Int32) :
    Reflects sassMap (ops ++ [op]) s completed := by
  have hop : op ∉ clockOpcodeIds sassMap := by simp [hno]
  have hcollecting : s.isCollecting = false := by
    rw [h.isCollecting]
    simp [clocks, hno]
  have hcount := h.count hop
  rwa [WarpState.count, hcollecting] at hcount

include h in
/-- With the region that is still collected, a warp has all its regions. -/
theorem Reflects.remaining (warpId : Int32) :
    completed ++ (s.remaining warpId).map RegionHistogram.row = regionRows sassMap ops := by
  have hcounter := h.regionCounter
  have hrow := h.histogram
  unfold regionRows WarpState.remaining
  by_cases hodd : clocks sassMap ops % 2 = 1
  · have hne : s.histogram ≠ 0 := by
      rw [regionRow, Prod.mk.injEq] at hrow
      rw [hrow.2, Ne, Multiset.coe_eq_zero]
      exact region_ne_nil sassMap (by omega)
    have hrange : (clocks sassMap ops + 1) / 2 = s.regionCounter + 1 := by omega
    rw [h.isCollecting, decide_eq_true hodd, decide_eq_true hne, hrange, List.range_succ,
      List.map_append, ← h.completed, List.map_singleton, ← hrow]
    rfl
  · have hrange : (clocks sassMap ops + 1) / 2 = s.regionCounter := by omega
    rw [h.isCollecting, decide_eq_false hodd, hrange, ← h.completed]
    exact List.append_nil _

end Regions

/-! ### The launches of a stream -/

/-- The lines of the function of a launch; none where the launch is unknown. -/
def sassOf (ctx : CtxState) (launches : Dict UInt64 UInt64) (launch : UInt64) : SassMap :=
  ((launches.get? launch).bind ctx.get?).getD .empty

def ownOps (launch : UInt64) (warp : Int32) (stream : List OpcodeOnly) : List Int32 :=
  (stream.filter fun r => r.kernelLaunchId = launch ∧ r.warpId = warp).map OpcodeOnly.opcodeId

def isClockOf (sassMap : SassMap) (launch : UInt64) (r : OpcodeOnly) : Bool :=
  r.kernelLaunchId = launch ∧ r.opcodeId ∈ clockOpcodeIds sassMap

/-- The records up to the first one of another launch behind the launch's first clock, where
`live` tells that a clock came before. -/
def servedFrom (sassMap : SassMap) (launch : UInt64) : Bool → List OpcodeOnly → List OpcodeOnly
  | _, [] => []
  | live, r :: rs =>
    if live ∧ r.kernelLaunchId ≠ launch then []
    else r :: servedFrom sassMap launch (live || isClockOf sassMap launch r) rs

def served (sassMap : SassMap) (launch : UInt64) (stream : List OpcodeOnly) : List OpcodeOnly :=
  servedFrom sassMap launch false stream

theorem ownOps_append (launch : UInt64) (warp : Int32) (as bs : List OpcodeOnly) :
    ownOps launch warp (as ++ bs) = ownOps launch warp as ++ ownOps launch warp bs := by
  simp [ownOps]

theorem ownOps_of_ne {launch : UInt64} {r : OpcodeOnly} (h : r.kernelLaunchId ≠ launch) (warp : Int32) :
    ownOps launch warp [r] = [] := by
  simp [ownOps, h]

theorem ownOps_self (r : OpcodeOnly) (warp : Int32) :
    ownOps r.kernelLaunchId warp [r] = if r.warpId = warp then [r.opcodeId] else [] := by
  by_cases h : r.warpId = warp <;> simp [ownOps, h]

theorem rows_remaining (warp : Int32) (e : Int32 × WarpState) :
    (e.2.remaining e.1).filter (fun h => h.warpId = warp) =
      if e.1 = warp then e.2.remaining e.1 else [] := by
  unfold WarpState.remaining
  by_cases hs : (e.2.isCollecting && e.2.histogram ≠ 0) = true
  · rw [if_pos hs]
    by_cases h : e.1 = warp <;> simp [h]
  · rw [if_neg hs]
    simp

def State.completedRows (s : State) (warp : Int32) : List (ℕ × Multiset (List Char)) :=
  (s.completedHistograms.filter fun h => h.warpId = warp).map RegionHistogram.row

def State.warp (s : State) (warp : Int32) : WarpState := (s.warpStates.get? warp).getD {}

/-- What a dump writes for a warp. -/
theorem rows_histograms (s : State) (warp : Int32) :
    (s.histograms.filter fun h => h.warpId = warp).map RegionHistogram.row =
      s.completedRows warp ++ ((s.warp warp).remaining warp).map RegionHistogram.row := by
  unfold State.histograms State.completedRows State.warp
  rw [List.filter_append, List.map_append,
    Dict.filter_flatMap_entries s.warpStates _ _ warp (rows_remaining warp)]
  cases s.warpStates.get? warp <;> rfl

/-! ### One record -/

section Dump

variable (histograms : List RegionHistogram) (s : State)

theorem get?_dump_of_ne {launch other : UInt64} (h : other ≠ launch) :
    (dumpPreviousKernelData other histograms s).kernelLaunchToFunc.get? launch =
      s.kernelLaunchToFunc.get? launch := by
  unfold dumpPreviousKernelData
  split_ifs
  · rfl
  · split
    · rfl
    · exact (Dict.get?_erase ..).trans (if_neg h.symm)

theorem rows_dump_of_ne {launch other : UInt64} (h : other ≠ launch) (warp : Int32) :
    (dumpPreviousKernelData other histograms s).rows launch warp = s.rows launch warp := by
  unfold dumpPreviousKernelData
  split_ifs
  · rfl
  · split
    · rfl
    · simp [State.rows, h]

/-- A launch without its state is not dumped again. -/
theorem dump_of_taken {launch : UInt64} (h : s.kernelLaunchToFunc.get? launch = none) :
    dumpPreviousKernelData launch histograms s = s := by
  unfold dumpPreviousKernelData
  split_ifs
  · rfl
  · rw [h]

theorem rows_dump {launch : UInt64} {func : UInt64} (hfunc : s.kernelLaunchToFunc.get? launch = some func)
    (hne : histograms ≠ []) (warp : Int32) :
    (dumpPreviousKernelData launch histograms s).rows launch warp =
      s.rows launch warp ++
        (histograms.filter fun h => h.warpId = warp).map RegionHistogram.row := by
  unfold dumpPreviousKernelData
  rw [if_neg hne, hfunc]
  simp [State.rows, RegionHistogram.row]

theorem get?_dump {launch : UInt64} {func : UInt64} (hfunc : s.kernelLaunchToFunc.get? launch = some func)
    (hne : histograms ≠ []) :
    (dumpPreviousKernelData launch histograms s).kernelLaunchToFunc.get? launch = none := by
  unfold dumpPreviousKernelData
  rw [if_neg hne, hfunc]
  exact (Dict.get?_erase ..).trans (if_pos rfl)

variable {s}

theorem kernelBoundary_none (h : s.lastSeenKernelLaunchId = none) (launch : UInt64) :
    kernelBoundary launch s = { s with lastSeenKernelLaunchId := some launch } := by
  rw [kernelBoundary, h]

theorem kernelBoundary_same {launch : UInt64} (h : s.lastSeenKernelLaunchId = some launch) :
    kernelBoundary launch s = s := by
  rw [kernelBoundary, h]
  exact if_pos rfl

theorem kernelBoundary_ne {launch previous : UInt64} (h : s.lastSeenKernelLaunchId = some previous)
    (hne : launch ≠ previous) :
    kernelBoundary launch s =
      { dumpPreviousKernelData previous s.histograms s with
        lastSeenKernelLaunchId := some launch
        warpStates := .empty
        completedHistograms := [] } := by
  rw [kernelBoundary, h]
  exact if_neg hne

end Dump

section Step

variable {ctx : CtxState} {launches : Dict UInt64 UInt64}

/-- Every warp's state is that of its instructions. -/
def ReflectsAll (sassMap : SassMap) (ops : Int32 → List Int32) (s : State) : Prop :=
  ∀ warp, Reflects sassMap (ops warp) (s.warp warp) (s.completedRows warp)

theorem process_lastSeen (ctx : CtxState) (ri : OpcodeOnly) (s : State) :
    (processInstructionHistogram ctx ri s).lastSeenKernelLaunchId = s.lastSeenKernelLaunchId ∧
      (processInstructionHistogram ctx ri s).kernelLaunchToFunc = s.kernelLaunchToFunc ∧
      (processInstructionHistogram ctx ri s).csv = s.csv := by
  unfold processInstructionHistogram
  split
  · exact ⟨rfl, rfl, rfl⟩
  · split_ifs <;> exact ⟨rfl, rfl, rfl⟩

def State.update (s : State) (warpId : Int32) (next : WarpState × List RegionHistogram) : State :=
  { s with
    warpStates := s.warpStates.insert warpId next.1
    completedHistograms := s.completedHistograms ++ next.2 }

theorem warp_update (s : State) (warpId warp : Int32) (next : WarpState × List RegionHistogram) :
    (s.update warpId next).warp warp = if warp = warpId then next.1 else s.warp warp := by
  unfold State.update State.warp
  rw [Dict.get?_insert]
  split_ifs <;> rfl

theorem completedRows_update (s : State) (warpId warp : Int32)
    (next : WarpState × List RegionHistogram) (h : ∀ e ∈ next.2, e.warpId = warpId) :
    (s.update warpId next).completedRows warp =
      s.completedRows warp ++ if warp = warpId then next.2.map RegionHistogram.row else [] := by
  unfold State.update State.completedRows
  rw [List.filter_append, List.map_append]
  split_ifs with hw
  · rw [List.filter_eq_self.mpr fun e he => decide_eq_true ((h e he).trans hw.symm)]
  · have hnil : next.2.filter (fun e => decide (e.warpId = warp)) = [] := by
      rw [List.filter_eq_nil_iff]
      intro e he
      simpa [h e he] using Ne.symm hw
    rw [hnil, List.map_nil]

/-- A record of a launch without clock instructions is not looked at. -/
theorem process_of_no_clocks {ri : OpcodeOnly} {s : State}
    (h : clockOpcodeIds (sassOf ctx s.kernelLaunchToFunc ri.kernelLaunchId) = []) :
    processInstructionHistogram ctx ri s = s := by
  unfold processInstructionHistogram
  unfold sassOf at h
  cases hfind : (s.kernelLaunchToFunc.get? ri.kernelLaunchId).bind ctx.get? with
  | none => rfl
  | some sassMap =>
    rw [hfind] at h
    exact if_pos h

theorem process_of_clocks {ri : OpcodeOnly} {s : State}
    (h : clockOpcodeIds (sassOf ctx s.kernelLaunchToFunc ri.kernelLaunchId) ≠ []) :
    processInstructionHistogram ctx ri s =
      s.update ri.warpId ((s.warp ri.warpId).process
        (sassOf ctx s.kernelLaunchToFunc ri.kernelLaunchId) ri.warpId ri.opcodeId) := by
  unfold processInstructionHistogram
  unfold sassOf at h ⊢
  cases hfind : (s.kernelLaunchToFunc.get? ri.kernelLaunchId).bind ctx.get? with
  | none =>
    rw [hfind] at h
    exact absurd rfl h
  | some sassMap =>
    rw [hfind] at h
    exact if_neg h

theorem warpId_process (sassMap : SassMap) (warpId opcodeId : Int32) (s : WarpState) :
    ∀ e ∈ (s.process sassMap warpId opcodeId).2, e.warpId = warpId := by
  unfold WarpState.process WarpState.clock
  split_ifs <;> simp

variable {ops : Int32 → List Int32}

/-- The record goes to the state of its own warp. -/
theorem ReflectsAll.process {ri : OpcodeOnly} {s : State}
    (h : ReflectsAll (sassOf ctx s.kernelLaunchToFunc ri.kernelLaunchId) ops s) :
    ReflectsAll (sassOf ctx s.kernelLaunchToFunc ri.kernelLaunchId)
      (fun warp => ops warp ++ ownOps ri.kernelLaunchId warp [ri])
      (processInstructionHistogram ctx ri s) := by
  intro warp
  have hwarp := h warp
  by_cases hno : clockOpcodeIds (sassOf ctx s.kernelLaunchToFunc ri.kernelLaunchId) = []
  · rw [process_of_no_clocks hno]
    simp only [ownOps_self]
    split_ifs
    · exact hwarp.skip hno ri.opcodeId
    · rwa [List.append_nil]
  · have hids := warpId_process (sassOf ctx s.kernelLaunchToFunc ri.kernelLaunchId) ri.warpId
      ri.opcodeId (s.warp ri.warpId)
    rw [process_of_clocks hno, warp_update, completedRows_update _ _ _ _ hids]
    simp only [ownOps_self]
    by_cases hw : warp = ri.warpId
    · subst hw
      rw [if_pos rfl, if_pos rfl, if_pos rfl]
      exact hwarp.process ri.warpId ri.opcodeId
    · rw [if_neg hw, if_neg hw, if_neg (Ne.symm hw), List.append_nil, List.append_nil]
      exact hwarp

/-- A launch that is not dumped yet, after the records `before`; `live` tells that one of them
was a clock of it. -/
structure Current (ctx : CtxState) (launches : Dict UInt64 UInt64) (launch : UInt64)
    (before : List OpcodeOnly) (live : Bool) (s : State) : Prop where
  func : s.kernelLaunchToFunc.get? launch = launches.get? launch
  rows : ∀ warp, s.rows launch warp = []
  quiet : live = false → ∀ warp, clocks (sassOf ctx launches launch) (ownOps launch warp before) = 0
  started : live = true → ∃ warp, 0 < clocks (sassOf ctx launches launch) (ownOps launch warp before)
  last : live = true → s.lastSeenKernelLaunchId = some launch
  reflects : s.lastSeenKernelLaunchId.getD launch = launch →
    ReflectsAll (sassOf ctx launches launch) (fun warp => ownOps launch warp before) s

/-- The launch has been dumped, with the regions of the records `before`. -/
structure Taken (ctx : CtxState) (launches : Dict UInt64 UInt64) (launch : UInt64)
    (before : List OpcodeOnly) (s : State) : Prop where
  func : s.kernelLaunchToFunc.get? launch = none
  rows : ∀ warp, s.rows launch warp =
    regionRows (sassOf ctx launches launch) (ownOps launch warp before)

variable {launch : UInt64} {before : List OpcodeOnly} {live : Bool} {s : State}

variable {sassMap : SassMap}

theorem ReflectsAll.rows (h : ReflectsAll sassMap ops s) (warp : Int32) :
    (s.histograms.filter fun h => h.warpId = warp).map RegionHistogram.row =
      regionRows sassMap (ops warp) := by
  rw [rows_histograms, (h warp).remaining]

theorem regionRows_eq_nil {ops : List Int32} :
    regionRows sassMap ops = [] ↔ clocks sassMap ops = 0 := by
  unfold regionRows
  rw [List.map_eq_nil_iff, List.range_eq_nil]
  omega

theorem ReflectsAll.histograms_eq_nil (h : ReflectsAll sassMap ops s)
    (hno : ∀ warp, clocks sassMap (ops warp) = 0) : s.histograms = [] := by
  rw [List.eq_nil_iff_forall_not_mem]
  intro e he
  have hrows := h.rows e.warpId
  rw [regionRows_eq_nil.mpr (hno e.warpId), List.map_eq_nil_iff] at hrows
  exact List.filter_eq_nil_iff.mp hrows e he (decide_eq_true rfl)

theorem ReflectsAll.histograms_ne_nil (h : ReflectsAll sassMap ops s) {warp : Int32}
    (hclock : 0 < clocks sassMap (ops warp)) : s.histograms ≠ [] := by
  intro hnil
  have hrows := h.rows warp
  rw [hnil] at hrows
  have := regionRows_eq_nil.mp hrows.symm
  omega

theorem known_of_clocks {ops : List Int32} (h : 0 < clocks (sassOf ctx launches launch) ops) :
    ∃ func, launches.get? launch = some func := by
  cases hfunc : launches.get? launch with
  | some func => exact ⟨func, rfl⟩
  | none =>
    have hempty : clockOpcodeIds (sassOf ctx launches launch) = [] := by
      rw [sassOf, hfunc]
      rfl
    simp [clocks, hempty] at h

theorem clocks_append (sassMap : SassMap) (as bs : List Int32) :
    clocks sassMap (as ++ bs) = clocks sassMap as + clocks sassMap bs := List.countP_append

theorem clocks_ownOps {r : OpcodeOnly} (h : isClockOf sassMap launch r = false) (warp : Int32) :
    clocks sassMap (ownOps launch warp [r]) = 0 := by
  by_cases hl : r.kernelLaunchId = launch
  · subst hl
    have hop : r.opcodeId ∉ clockOpcodeIds sassMap := by simpa [isClockOf] using h
    rw [ownOps_self]
    split_ifs
    · simp [clocks, hop]
    · rfl
  · rw [ownOps_of_ne hl]
    rfl

theorem clocks_ownOps_pos {r : OpcodeOnly} (h : isClockOf sassMap launch r = true) :
    0 < clocks sassMap (ownOps launch r.warpId [r]) := by
  obtain ⟨rfl, hop⟩ : r.kernelLaunchId = launch ∧ r.opcodeId ∈ clockOpcodeIds sassMap := by
    simpa [isClockOf] using h
  simp [ownOps_self, clocks, hop]

theorem Current.boundary (h : Current ctx launches launch before live s) :
    Current ctx launches launch before live (kernelBoundary launch s) ∧
      (kernelBoundary launch s).lastSeenKernelLaunchId = some launch := by
  cases hprev : s.lastSeenKernelLaunchId with
  | none =>
    rw [kernelBoundary_none hprev]
    have hreflects := h.reflects (by rw [hprev]; rfl)
    exact ⟨⟨h.func, h.rows, h.quiet, h.started, fun _ => rfl, fun _ => hreflects⟩, rfl⟩
  | some previous =>
    by_cases heq : launch = previous
    · subst heq
      rw [kernelBoundary_same hprev]
      exact ⟨h, hprev⟩
    · rw [kernelBoundary_ne hprev heq]
      have hne : previous ≠ launch := Ne.symm heq
      have hlive : live = false := by
        cases live with
        | false => rfl
        | true => exact absurd (Option.some.inj (hprev.symm.trans (h.last rfl))) hne
      refine ⟨⟨?_, ?_, h.quiet, h.started, fun _ => rfl, fun _ warp => ?_⟩, rfl⟩
      · exact (get?_dump_of_ne _ s hne).trans h.func
      · exact fun warp => (rows_dump_of_ne _ s hne warp).trans (h.rows warp)
      · exact .of_no_clocks _ (h.quiet hlive warp)

/-- A record of the launch itself. -/
theorem Current.step_own (h : Current ctx launches launch before live s) {r : OpcodeOnly}
    (hr : r.kernelLaunchId = launch) :
    Current ctx launches launch (before ++ [r])
      (live || isClockOf (sassOf ctx launches launch) launch r) (step ctx s r) := by
  subst hr
  obtain ⟨hb, hlast⟩ := h.boundary
  obtain ⟨hlast', hfunc, hcsv⟩ := process_lastSeen ctx r (kernelBoundary r.kernelLaunchId s)
  have hsass : sassOf ctx (kernelBoundary r.kernelLaunchId s).kernelLaunchToFunc r.kernelLaunchId =
      sassOf ctx launches r.kernelLaunchId := by
    rw [sassOf, hb.func, sassOf]
  unfold step
  refine ⟨?_, ?_, ?_, ?_, fun _ => hlast'.trans hlast, ?_⟩
  · rw [hfunc, hb.func]
  · intro warp
    rw [State.rows, hcsv]
    exact hb.rows warp
  · intro hquiet warp
    obtain ⟨hlive, hclock⟩ := Bool.or_eq_false_iff.mp hquiet
    rw [ownOps_append, clocks_append, hb.quiet hlive, clocks_ownOps hclock]
  · intro hstarted
    rcases Bool.or_eq_true_iff.mp hstarted with hlive | hclock
    · obtain ⟨warp, hwarp⟩ := hb.started hlive
      refine ⟨warp, ?_⟩
      rw [ownOps_append, clocks_append]
      omega
    · refine ⟨r.warpId, ?_⟩
      rw [ownOps_append, clocks_append]
      have := clocks_ownOps_pos hclock
      omega
  · intro _
    have hprocess := (hsass ▸ hb.reflects (by rw [hlast]; rfl)).process
    rw [hsass] at hprocess
    simpa only [ownOps_append] using hprocess

/-- A dump of the launch writes all its regions. -/
theorem Current.dump (h : Current ctx launches launch before true s) :
    Taken ctx launches launch before (dumpPreviousKernelData launch s.histograms s) := by
  have hreflects := h.reflects (by rw [h.last rfl]; rfl)
  obtain ⟨warp, hclock⟩ := h.started rfl
  obtain ⟨func, hfunc⟩ := known_of_clocks hclock
  have hne := hreflects.histograms_ne_nil hclock
  refine ⟨get?_dump _ s (h.func.trans hfunc) hne, fun warp => ?_⟩
  rw [rows_dump _ s (h.func.trans hfunc) hne, h.rows, hreflects.rows, List.nil_append]

/-- Without a clock of the launch there is nothing to dump. -/
theorem Current.dump_quiet (h : Current ctx launches launch before false s)
    (hlast : s.lastSeenKernelLaunchId = some launch) :
    dumpPreviousKernelData launch s.histograms s = s := by
  have hreflects := h.reflects (by rw [hlast]; rfl)
  rw [dumpPreviousKernelData, if_pos (hreflects.histograms_eq_nil (h.quiet rfl))]

/-- A record of another launch before the launch's first clock. -/
theorem Current.step_foreign (h : Current ctx launches launch before false s) {r : OpcodeOnly}
    (hr : r.kernelLaunchId ≠ launch) :
    Current ctx launches launch (before ++ [r]) false (step ctx s r) := by
  obtain ⟨hlast', hfunc, hcsv⟩ := process_lastSeen ctx r (kernelBoundary r.kernelLaunchId s)
  have hboundary : (kernelBoundary r.kernelLaunchId s).kernelLaunchToFunc.get? launch =
        s.kernelLaunchToFunc.get? launch ∧
      (∀ warp, (kernelBoundary r.kernelLaunchId s).rows launch warp = s.rows launch warp) ∧
      (kernelBoundary r.kernelLaunchId s).lastSeenKernelLaunchId = some r.kernelLaunchId := by
    cases hprev : s.lastSeenKernelLaunchId with
    | none =>
      rw [kernelBoundary_none hprev]
      exact ⟨rfl, fun _ => rfl, rfl⟩
    | some previous =>
      by_cases heq : r.kernelLaunchId = previous
      · subst heq
        rw [kernelBoundary_same hprev]
        exact ⟨rfl, fun _ => rfl, hprev⟩
      · rw [kernelBoundary_ne hprev heq]
        by_cases hl : previous = launch
        · subst hl
          rw [h.dump_quiet hprev]
          exact ⟨rfl, fun _ => rfl, rfl⟩
        · exact ⟨get?_dump_of_ne _ s hl, rows_dump_of_ne _ s hl, rfl⟩
  obtain ⟨hfunc', hrows', hlast⟩ := hboundary
  unfold step
  refine ⟨?_, ?_, ?_, nofun, nofun, ?_⟩
  · rw [hfunc, hfunc', h.func]
  · intro warp
    rw [State.rows, hcsv]
    exact (hrows' warp).trans (h.rows warp)
  · intro _ warp
    rw [ownOps_append, ownOps_of_ne hr, List.append_nil, h.quiet rfl]
  · intro hlaunch
    rw [hlast', hlast] at hlaunch
    exact absurd hlaunch hr

/-- A record of another launch behind the launch's first clock dumps the launch. -/
theorem Current.step_boundary (h : Current ctx launches launch before true s) {r : OpcodeOnly}
    (hr : r.kernelLaunchId ≠ launch) : Taken ctx launches launch before (step ctx s r) := by
  obtain ⟨-, hfunc, hcsv⟩ := process_lastSeen ctx r (kernelBoundary r.kernelLaunchId s)
  have htaken := h.dump
  rw [kernelBoundary_ne (h.last rfl) hr] at hfunc hcsv
  rw [step, kernelBoundary_ne (h.last rfl) hr]
  refine ⟨by rw [hfunc]; exact htaken.func, fun warp => ?_⟩
  rw [State.rows, hcsv]
  exact htaken.rows warp

theorem Taken.dump (h : Taken ctx launches launch before s) (other : UInt64)
    (histograms : List RegionHistogram) :
    Taken ctx launches launch before (dumpPreviousKernelData other histograms s) := by
  by_cases hl : other = launch
  · subst hl
    rwa [dump_of_taken _ s h.func]
  · exact ⟨(get?_dump_of_ne _ s hl).trans h.func,
      fun warp => (rows_dump_of_ne _ s hl warp).trans (h.rows warp)⟩

/-- A dumped launch is not dumped again. -/
theorem Taken.step (h : Taken ctx launches launch before s) (r : OpcodeOnly) :
    Taken ctx launches launch before (step ctx s r) := by
  obtain ⟨-, hfunc, hcsv⟩ := process_lastSeen ctx r (kernelBoundary r.kernelLaunchId s)
  have hboundary : Taken ctx launches launch before (kernelBoundary r.kernelLaunchId s) := by
    cases hprev : s.lastSeenKernelLaunchId with
    | none =>
      rw [kernelBoundary_none hprev]
      exact ⟨h.func, h.rows⟩
    | some previous =>
      by_cases heq : r.kernelLaunchId = previous
      · rwa [kernelBoundary_same (heq ▸ hprev)]
      · rw [kernelBoundary_ne hprev heq]
        exact ⟨(h.dump previous s.histograms).func, (h.dump previous s.histograms).rows⟩
  refine ⟨by rw [Histogram.step, hfunc]; exact hboundary.func, fun warp => ?_⟩
  rw [Histogram.step, State.rows, hcsv]
  exact hboundary.rows warp

theorem Taken.run (h : Taken ctx launches launch before s) (stream : List OpcodeOnly) :
    Taken ctx launches launch before (finalDump (stream.foldl (Histogram.step ctx) s)) := by
  induction stream generalizing s with
  | nil =>
    rw [List.foldl_nil, finalDump]
    cases s.lastSeenKernelLaunchId with
    | none => exact h
    | some last => exact h.dump last s.histograms
  | cons r rs ih => exact ih (h.step r)

/-- The dump at the end of the run. -/
theorem Current.rows_finalDump (h : Current ctx launches launch before live s) (warp : Int32) :
    (finalDump s).rows launch warp =
      regionRows (sassOf ctx launches launch) (ownOps launch warp before) := by
  cases live with
  | true =>
    rw [finalDump, h.last rfl]
    exact h.dump.rows warp
  | false =>
    rw [regionRows_eq_nil.mpr (h.quiet rfl warp), finalDump]
    cases hlast : s.lastSeenKernelLaunchId with
    | none => exact h.rows warp
    | some last =>
      by_cases hl : last = launch
      · subst hl
        show (dumpPreviousKernelData last s.histograms s).rows last warp = []
        rw [h.dump_quiet hlast]
        exact h.rows warp
      · exact (rows_dump_of_ne _ s hl warp).trans (h.rows warp)

theorem Current.rows_run (h : Current ctx launches launch before live s) (stream : List OpcodeOnly)
    (warp : Int32) :
    (finalDump (stream.foldl (Histogram.step ctx) s)).rows launch warp =
      regionRows (sassOf ctx launches launch) (ownOps launch warp
        (before ++ servedFrom (sassOf ctx launches launch) launch live stream)) := by
  induction stream generalizing before live s with
  | nil =>
    rw [servedFrom, List.append_nil]
    exact h.rows_finalDump warp
  | cons r rs ih =>
    rw [servedFrom, List.foldl_cons]
    by_cases hr : r.kernelLaunchId = launch
    · rw [if_neg (by simp [hr]), ih (h.step_own hr), List.append_assoc, List.singleton_append]
    · have hclock : isClockOf (sassOf ctx launches launch) launch r = false := by simp [isClockOf, hr]
      cases live with
      | true =>
        rw [if_pos ⟨rfl, hr⟩, List.append_nil]
        exact ((h.step_boundary hr).run rs).rows warp
      | false =>
        rw [if_neg (by simp), ih (h.step_foreign hr), hclock, List.append_assoc,
          List.singleton_append]
        rfl

end Step

/-- What is dumped for a launch is the regions of the records up to the first one of another
launch behind the launch's first clock. -/
theorem rows_recvThread (ctx : CtxState) (launches : Dict UInt64 UInt64) (stream : List OpcodeOnly)
    (launch : UInt64) (warp : Int32) :
    (recvThread ctx launches stream).rows launch warp =
      regionRows (sassOf ctx launches launch)
        (ownOps launch warp (served (sassOf ctx launches launch) launch stream)) := by
  have hstart : Current ctx launches launch [] false { kernelLaunchToFunc := launches } :=
    ⟨rfl, fun _ => rfl, fun _ _ => rfl, nofun, nofun, fun _ _ => .of_no_clocks _ rfl⟩
  exact hstart.rows_run stream warp

theorem served_append (sassMap : SassMap) (launch : UInt64) (stream : List OpcodeOnly) :
    ∃ rest, stream = served sassMap launch stream ++ rest := by
  unfold served
  generalize false = live
  induction stream generalizing live with
  | nil => exact ⟨[], rfl⟩
  | cons r rs ih =>
    rw [servedFrom]
    split_ifs
    · exact ⟨r :: rs, rfl⟩
    · obtain ⟨rest, hrest⟩ := ih (live || isClockOf sassMap launch r)
      exact ⟨rest, by rw [List.cons_append, ← hrest]⟩

/-- Behind the first record of another launch that follows a clock of the launch, no record of
the launch lies in a region. -/
def Uninterrupted (sassMap : SassMap) (launch : UInt64) (stream : List OpcodeOnly) : Prop :=
  ∀ between r rest, stream = served sassMap launch stream ++ between ++ r :: rest →
    r.kernelLaunchId = launch →
      ¬Counted sassMap (ownOps launch r.warpId (served sassMap launch stream ++ between)) r.opcodeId

theorem regionRows_uncounted {sassMap : SassMap} {launch : UInt64} {before rest : List OpcodeOnly}
    (h : ∀ between r behind, rest = between ++ r :: behind → r.kernelLaunchId = launch →
      ¬Counted sassMap (ownOps launch r.warpId (before ++ between)) r.opcodeId) (warp : Int32) :
    regionRows sassMap (ownOps launch warp (before ++ rest)) =
      regionRows sassMap (ownOps launch warp before) := by
  induction rest using List.reverseRecOn with
  | nil => rw [List.append_nil]
  | append_singleton rest r ih =>
    have hrest := ih fun between r' behind hsplit =>
      h between r' (behind ++ [r]) (by rw [hsplit, List.append_assoc, List.cons_append])
    rw [← List.append_assoc, ownOps_append, ← hrest]
    by_cases hr : r.kernelLaunchId = launch
    · have hcounted := h rest r [] rfl hr
      subst hr
      rw [ownOps_self]
      split_ifs with hw
      · rw [← hw]
        exact regionRows_concat sassMap hcounted
      · rw [List.append_nil]
    · rw [ownOps_of_ne hr, List.append_nil]

/-- The rows of a launch are those of its warps' own records exactly where no record of the
launch that lies in a region comes behind a record of another launch that follows the launch's
first clock. -/
theorem rows_iff_uninterrupted (ctx : CtxState) (launches : Dict UInt64 UInt64)
    (stream : List OpcodeOnly) (launch : UInt64) :
    (∀ warp, (recvThread ctx launches stream).rows launch warp =
        regionRows (sassOf ctx launches launch) (ownOps launch warp stream)) ↔
      Uninterrupted (sassOf ctx launches launch) launch stream := by
  generalize hsass : sassOf ctx launches launch = sassMap
  obtain ⟨rest, hrest⟩ := served_append sassMap launch stream
  simp only [rows_recvThread, hsass]
  constructor
  · intro hrows between r behind hsplit hr hcounted
    subst hr
    have hstream : ownOps r.kernelLaunchId r.warpId stream =
        ownOps r.kernelLaunchId r.warpId (served sassMap r.kernelLaunchId stream) ++
          ownOps r.kernelLaunchId r.warpId between ++ [r.opcodeId] ++
          ownOps r.kernelLaunchId r.warpId behind := by
      have hown : ownOps r.kernelLaunchId r.warpId [r] = [r.opcodeId] := by
        rw [ownOps_self, if_pos rfl]
      conv_lhs => rw [hsplit]
      rw [← hown, ← ownOps_append, ← ownOps_append, ← ownOps_append, List.append_assoc _ [r],
        List.singleton_append]
    rw [ownOps_append] at hcounted
    exact regionRows_ne_of_counted sassMap hcounted _ (hstream ▸ (hrows r.warpId).symm)
  · intro huninterrupted warp
    conv_rhs => rw [hrest]
    refine (regionRows_uncounted (fun between r behind hsplit hr => ?_) warp).symm
    exact huninterrupted between r behind (by rw [List.append_assoc, ← hsplit, ← hrest]) hr

def opcodeRecord (launch : UInt64) (warp opcodeId : Int32) : OpcodeOnly :=
  ⟨launch, 0, 0, 0, 0, warp, opcodeId, 0xffffffff⟩

def clockAndAdd : SassMap :=
  ⟨[(1, "CS2R R2, SR_CLOCKLO ;".toList), (2, "IADD3 R0, R0, R1, RZ ;".toList)], by decide⟩

/-- Two launches of one kernel at the same time: the addition of the first one, in the region that
its clock started, comes behind a record of the second one and is not in the dump. -/
theorem interleaved_launch_loses_records :
    ¬∀ (ctx : CtxState) (launches : Dict UInt64 UInt64) (stream : List OpcodeOnly) (launch : UInt64)
      (warp : Int32), (recvThread ctx launches stream).rows launch warp =
        regionRows (sassOf ctx launches launch) (ownOps launch warp stream) := by
  intro h
  have hrows := h ⟨[(0, clockAndAdd)], by decide⟩ ⟨[(0, 0), (1, 0)], by decide⟩
    [opcodeRecord 0 0 1, opcodeRecord 1 1 2, opcodeRecord 0 0 2] 0 0
  revert hrows
  decide +kernel

end CuTracer.Capture.Histogram
