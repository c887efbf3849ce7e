import CuTracer.Library.BinarySearch
import CuTracer.PlanRuntime.Tables
import Mathlib.Data.Fintype.Card
import Mathlib.Data.Finset.Prod

/-! Selection by CTA, warp and lane, which the host counts before a launch, the device
searches in flattened tables at every visit, and the host checks again for every packet.
All three select the same warps; so the host expects as many entries as there are warps
of the launch that the device selects. -/

namespace CuTracer.PlanRuntime

open Plan BinarySearch

/-! ### The launch -/

structure Dim3 where
  x : ℕ
  y : ℕ
  z : ℕ
  deriving DecidableEq

def fail {α : Type} (detail : String) : Except PlanError α := .error ⟨detail⟩

def checkedProduct (a b : ℕ) : Except PlanError ℕ :=
  if b ≠ 0 ∧ (2 ^ 64 - 1) / b < a then fail "Capture geometry exceeds count range"
  else .ok (a * b)

def Dim3.volume (d : Dim3) : Except PlanError ℕ := do
  checkedProduct (← checkedProduct d.x d.y) d.z

def inside (grid : Dim3) (cta : Cta) : Bool :=
  (ofLex cta).1 < grid.x && (ofLex (ofLex cta).2).1 < grid.y && (ofLex (ofLex cta).2).2 < grid.z

def warpCount (threads : ℕ) : ℕ := (threads + 31) / 32

/-- The lanes of a warp that are threads of the block; the last warp may have fewer. -/
def liveLanes (threads warp : ℕ) : ℕ := min 32 (threads - warp * 32)

/-! ### The host counts -/

def warpCounted (capture : CaptureSelector) (threads warp : ℕ) : Bool :=
  (capture.warps = [] || binarySearch capture.warps warp) &&
    (match capture.lanes with
      | [] => true
      | front :: _ => front < liveLanes threads warp)

def expectedEntries (config : Config) (grid block : Dim3) : Except PlanError ℕ := do
  let threads ← block.volume
  if 1024 < threads then fail "Invalid block geometry for plan capture"
  else do
    let all ← grid.volume
    let ctas := if config.capture.ctas = [] then all else config.capture.ctas.countP (inside grid)
    let warps := (List.range (warpCount threads)).countP (warpCounted config.capture threads)
    checkedProduct ctas warps

/-! ### The tables of the device -/

structure PlanDeviceConfig where
  maxRecords : ℕ
  maxBytes : ℕ
  laneMask : BitVec 32
  ctaCount : ℕ
  warpCount : ℕ
  ctas : List ℕ
  warps : List ℕ

def laneMask (lanes : List ℕ) : BitVec 32 :=
  lanes.foldl (fun mask lane => mask ||| 1#32 <<< lane)
    (if lanes = [] then BitVec.allOnes 32 else 0#32)

def deviceConfig (config : Config) : PlanDeviceConfig where
  maxRecords := config.budget.maxRecords
  maxBytes := config.budget.maxBytes
  laneMask := laneMask config.capture.lanes
  ctaCount := config.capture.ctas.length % 2 ^ 32
  warpCount := config.capture.warps.length % 2 ^ 32
  ctas := config.capture.ctas.flatMap Cta.coordinates
  warps := config.capture.warps

/-! ### The device searches -/

/-- The first axis on which an entry and the key differ decides. -/
def compareAxes : List ℕ → List ℕ → Ordering
  | a :: candidate, b :: key =>
    if a = b then compareAxes candidate key else if a < b then .lt else .gt
  | _, _ => .eq

def entryAt (values : List ℕ) (width middle : ℕ) : List ℕ :=
  (values.drop (middle * width)).take width

def planSelectionContains (values : List ℕ) (count : ℕ) (key : List ℕ) : Bool :=
  if count = 0 then true
  else search (fun middle => compareAxes (entryAt values key.length middle) key) 0 count

/-- A warp in its CTA, whose coordinates the device has as 32-bit numbers. -/
def PlanDeviceConfig.geometrySelected (config : PlanDeviceConfig) (cta : Cta) (warp : ℕ) : Bool :=
  planSelectionContains config.ctas config.ctaCount (cta.coordinates.map (· % 2 ^ 32)) &&
    planSelectionContains config.warps config.warpCount [warp]

/-! ### The flattened search -/

theorem compareAxes_lt {a b : Cta} :
    compareAxes (Cta.coordinates a) (Cta.coordinates b) = .lt ↔ a < b := by
  simp only [Cta.coordinates, compareAxes, Prod.Lex.lt_iff]
  split_ifs <;> simp <;> omega

theorem compareAxes_gt {a b : Cta} :
    compareAxes (Cta.coordinates a) (Cta.coordinates b) = .gt ↔ b < a := by
  simp only [Cta.coordinates, compareAxes, Prod.Lex.lt_iff]
  split_ifs <;> simp <;> omega

theorem coordinates_injective : Function.Injective Cta.coordinates := by
  intro a b h
  simp only [Cta.coordinates, List.cons.injEq, and_true] at h
  exact Prod.ext h.1 (Prod.ext h.2.1 h.2.2)

theorem compareAxes_eq {a b : Cta} :
    compareAxes (Cta.coordinates a) (Cta.coordinates b) = .eq ↔ a = b := by
  rw [← coordinates_injective.eq_iff]
  simp only [Cta.coordinates, compareAxes, List.cons.injEq]
  split_ifs <;> simp <;> omega

theorem entryAt_flatMap {α : Type} {f : α → List ℕ} {width : ℕ} (hf : ∀ a, (f a).length = width)
    {xs : List α} {i : ℕ} {a : α} (h : xs[i]? = some a) : entryAt (xs.flatMap f) width i = f a := by
  induction xs generalizing i with
  | nil => cases h
  | cons x xs ih =>
    rw [List.flatMap_cons, entryAt]
    cases i with
    | zero =>
      obtain rfl := Option.some.inj h
      rw [Nat.zero_mul, List.drop_zero, ← hf x, List.take_left]
    | succ i =>
      rw [Nat.succ_mul, Nat.add_comm, List.drop_append, List.drop_of_length_le (by rw [hf]; omega),
        hf, Nat.add_sub_cancel_left, List.nil_append]
      exact ih h

section Flattened

variable {α : Type} [LinearOrder α] {f : α → List ℕ} {width : ℕ}

/-- A search in a flattened table finds the keys that stand in it. -/
theorem planSelectionContains_iff (hf : ∀ a, (f a).length = width)
    (hlt : ∀ a b, compareAxes (f a) (f b) = .lt ↔ a < b)
    (hgt : ∀ a b, compareAxes (f a) (f b) = .gt ↔ b < a)
    (heq : ∀ a b, compareAxes (f a) (f b) = .eq ↔ a = b) {xs : List α}
    (h : xs.Pairwise (· < ·)) (key : α) :
    planSelectionContains (xs.flatMap f) xs.length (f key) = true ↔ xs = [] ∨ key ∈ xs := by
  unfold planSelectionContains
  split_ifs with hnil
  · simp [List.length_eq_zero_iff.mp hnil]
  have hne : xs ≠ [] := fun h => hnil (h ▸ rfl)
  have hat : ∀ i (hi : i < xs.length), entryAt (xs.flatMap f) (f key).length i = f xs[i] :=
    fun i hi => (hf key).symm ▸ entryAt_flatMap hf (List.getElem?_eq_getElem hi)
  rw [List.pairwise_iff_getElem] at h
  rw [search_iff, List.mem_iff_getElem]
  · simp only [hne, false_or, Nat.zero_le, true_and]
    constructor
    · rintro ⟨i, hi, hprobe⟩
      rw [hat i hi, heq] at hprobe
      exact ⟨i, hi, hprobe⟩
    · rintro ⟨i, hi, hkey⟩
      exact ⟨i, hi, by rw [hat i hi, heq]; exact hkey⟩
  · constructor
    · intro i j hij hj hprobe
      rw [hat j hj, hlt] at hprobe
      rw [hat i (hij.trans hj), hlt]
      exact (h i j _ hj hij).trans hprobe
    · intro i j hij hj hprobe
      rw [hat i (hij.trans hj), hgt] at hprobe
      rw [hat j hj, hgt]
      exact hprobe.trans (h i j _ hj hij)

end Flattened

/-! ### What is selected -/

/-- A warp of a CTA that the selection names, or does not restrict. -/
def Selects (capture : CaptureSelector) (cta : Cta) (warp : ℕ) : Prop :=
  (capture.ctas = [] ∨ cta ∈ capture.ctas) ∧ (capture.warps = [] ∨ warp ∈ capture.warps)

theorem IsCapture.pairwise {α : Type} [LinearOrder α] {p : α → Prop} {values : List α}
    (h : IsCapture p values) : values.Pairwise (· < ·) := by
  rcases h with rfl | h
  · exact List.Pairwise.nil
  · exact h.increasing

theorem IsCapture.count {α : Type} [LinearOrder α] {p : α → Prop} {values : List α}
    (h : IsCapture p values) : values.length % 2 ^ 32 = values.length := by
  rcases h with rfl | h
  · rfl
  · have := h.length
    exact Nat.mod_eq_of_lt (by rw [kArrayMax] at this; omega)

def InRange (cta : Cta) : Prop := ∀ n ∈ cta.coordinates, n < 2 ^ 32

theorem geometrySelected_iff {config : Config} (h : config.capture.Good) {cta : Cta}
    (hcta : InRange cta) (warp : ℕ) :
    (deviceConfig config).geometrySelected cta warp = true ↔ Selects config.capture cta warp := by
  have hkey : cta.coordinates.map (· % 2 ^ 32) = cta.coordinates :=
    (List.map_congr_left fun n hn => Nat.mod_eq_of_lt (hcta n hn)).trans (List.map_id _)
  have hwarps := @planSelectionContains_iff ℕ _ (fun warp => [warp]) 1 (fun _ => rfl)
    (fun a b => by simp only [compareAxes]; split_ifs <;> simp <;> omega)
    (fun a b => by simp only [compareAxes]; split_ifs <;> simp <;> omega)
    (fun a b => by simp only [compareAxes]; split_ifs <;> simp <;> omega)
    config.capture.warps (IsCapture.pairwise h.warps) warp
  rw [List.flatMap_singleton'] at hwarps
  rw [PlanDeviceConfig.geometrySelected, Bool.and_eq_true, hkey, Selects]
  simp only [deviceConfig, IsCapture.count h.ctas, IsCapture.count h.warps]
  have hwidth : ∀ cta : Cta, cta.coordinates.length = 3 := fun _ => rfl
  rw [hwarps, planSelectionContains_iff hwidth (fun _ _ => compareAxes_lt)
    (fun _ _ => compareAxes_gt) (fun _ _ => compareAxes_eq) (IsCapture.pairwise h.ctas)]

/-! ### Lanes -/

def blockMask (activeLanes : ℕ) : BitVec 32 :=
  if activeLanes = 32 then BitVec.allOnes 32 else 1#32 <<< activeLanes - 1#32

theorem getLsbD_laneMask (lanes : List ℕ) (lane : ℕ) :
    (laneMask lanes).getLsbD lane = true ↔ lane < 32 ∧ (lanes = [] ∨ lane ∈ lanes) := by
  have hfold : ∀ (ls : List ℕ) (mask : BitVec 32),
      (ls.foldl (fun mask lane => mask ||| 1#32 <<< lane) mask).getLsbD lane = true ↔
        mask.getLsbD lane = true ∨ lane < 32 ∧ lane ∈ ls := by
    intro ls
    induction ls with
    | nil => simp
    | cons l ls ih =>
      intro mask
      rw [List.foldl_cons, ih, BitVec.getLsbD_or, BitVec.getLsbD_shiftLeft, BitVec.getLsbD_one]
      simp only [Bool.or_eq_true, Bool.and_eq_true, decide_eq_true_iff, Bool.not_eq_true',
        decide_eq_false_iff_not, List.mem_cons]
      rw [or_assoc]
      refine or_congr_right ?_
      constructor
      · rintro (⟨⟨hlt, hge⟩, -, heq⟩ | ⟨hlt, hmem⟩)
        · exact ⟨hlt, .inl (by omega)⟩
        · exact ⟨hlt, .inr hmem⟩
      · rintro ⟨hlt, rfl | hmem⟩
        · exact .inl ⟨⟨hlt, by omega⟩, by omega, by omega⟩
        · exact .inr ⟨hlt, hmem⟩
  rw [laneMask, hfold]
  split_ifs with hnil
  · subst hnil
    simp only [BitVec.getLsbD_allOnes, decide_eq_true_iff, List.not_mem_nil, and_false, or_false,
      and_true]
  · simp [hnil]

theorem getLsbD_blockMask {activeLanes : ℕ} (h : activeLanes ≤ 32) (lane : ℕ) :
    (blockMask activeLanes).getLsbD lane = true ↔ lane < activeLanes := by
  unfold blockMask
  split_ifs with h32
  · rw [h32, BitVec.getLsbD_allOnes, decide_eq_true_iff]
  · have hmask : 1#32 <<< activeLanes - 1#32 = BitVec.ofNat 32 (2 ^ activeLanes - 1) := by
      have hlt : 2 ^ activeLanes < 2 ^ 32 := Nat.pow_lt_pow_right (by omega) (by omega)
      have hpos : 0 < 2 ^ activeLanes := Nat.two_pow_pos _
      apply BitVec.eq_of_toNat_eq
      rw [BitVec.toNat_sub, BitVec.toNat_shiftLeft, BitVec.toNat_ofNat, BitVec.toNat_ofNat,
        Nat.shiftLeft_eq]
      omega
    rw [hmask, BitVec.getLsbD_ofNat, Nat.testBit_two_pow_sub_one]
    simp only [Bool.and_eq_true, decide_eq_true_iff]
    omega

theorem liveLanes_le (threads warp : ℕ) : liveLanes threads warp ≤ 32 := Nat.min_le_left _ _

theorem liveLanes_pos {threads warp : ℕ} (h : warp < warpCount threads) :
    0 < liveLanes threads warp := by
  unfold warpCount at h
  unfold liveLanes
  omega

theorem ne_zero_iff_getLsbD {mask : BitVec 32} :
    mask ≠ 0#32 ↔ ∃ lane, mask.getLsbD lane = true := by
  constructor
  · intro h
    by_contra hnone
    push Not at hnone
    exact h (BitVec.eq_of_getLsbD_eq fun i _ => by simpa using hnone i)
  · rintro ⟨lane, hlane⟩ rfl
    simp at hlane

/-- The lanes of a warp meet the selected lanes if the first selected one is a thread. -/
theorem lanes_meet {capture : CaptureSelector} (h : capture.Good) {threads warp : ℕ}
    (hwarp : warp < warpCount threads) :
    blockMask (liveLanes threads warp) &&& laneMask capture.lanes ≠ 0#32 ↔
      ∀ front, capture.lanes.head? = some front → front < liveLanes threads warp := by
  have hpos := liveLanes_pos hwarp
  have hle := liveLanes_le threads warp
  rw [ne_zero_iff_getLsbD]
  simp only [BitVec.getLsbD_and, Bool.and_eq_true, getLsbD_blockMask hle, getLsbD_laneMask]
  have hsorted := IsCapture.pairwise h.lanes
  constructor
  · rintro ⟨lane, hlane, -, hmem⟩ front hfront
    obtain ⟨rest, hrest⟩ := List.head?_eq_some_iff.mp hfront
    rw [hrest] at hmem hsorted
    rcases hmem with hmem | hmem
    · cases hmem
    rcases List.mem_cons.mp hmem with rfl | hmem
    · exact hlane
    · exact (List.rel_of_pairwise_cons hsorted hmem).trans hlane
  · intro hfront
    cases hlanes : capture.lanes with
    | nil => exact ⟨0, hpos, by omega, .inl rfl⟩
    | cons front rest =>
      have hlt := hfront front (by rw [hlanes]; rfl)
      exact ⟨front, hlt, by omega, .inr List.mem_cons_self⟩

/-! ### The host counts what the device selects -/

def gridCtas (grid : Dim3) : Finset Cta :=
  (Finset.range grid.x ×ˢ Finset.range grid.y ×ˢ Finset.range grid.z).image fun p =>
    toLex (p.1, toLex p.2)

def launchWarps (grid : Dim3) (threads : ℕ) : Finset (Cta × ℕ) :=
  gridCtas grid ×ˢ Finset.range (warpCount threads)

/-- Does a warp count at an entry, with all of its threads there? -/
def PlanDeviceConfig.counts (config : PlanDeviceConfig) (threads : ℕ) (w : Cta × ℕ) : Bool :=
  config.geometrySelected w.1 w.2 &&
    blockMask (liveLanes threads w.2) &&& config.laneMask ≠ 0#32

/-- Extents of a grid are 32-bit numbers. -/
def Dim3.InRange (d : Dim3) : Prop := d.x < 2 ^ 32 ∧ d.y < 2 ^ 32 ∧ d.z < 2 ^ 32

theorem mem_gridCtas {grid : Dim3} {cta : Cta} : cta ∈ gridCtas grid ↔ inside grid cta = true := by
  simp only [gridCtas, Finset.mem_image, Finset.mem_product, Finset.mem_range, inside,
    Bool.and_eq_true, decide_eq_true_iff, Prod.exists]
  constructor
  · rintro ⟨x, y, z, ⟨hx, hy, hz⟩, rfl⟩
    exact ⟨⟨hx, hy⟩, hz⟩
  · rintro ⟨⟨hx, hy⟩, hz⟩
    exact ⟨_, _, _, ⟨hx, hy, hz⟩, rfl⟩

theorem card_gridCtas (grid : Dim3) : (gridCtas grid).card = grid.x * grid.y * grid.z := by
  rw [gridCtas, Finset.card_image_of_injective, Finset.card_product, Finset.card_product,
    Finset.card_range, Finset.card_range, Finset.card_range, Nat.mul_assoc]
  intro p q h
  exact Prod.ext (congrArg (fun c : Cta => (ofLex c).1) h) (congrArg (fun c : Cta => ofLex (ofLex c).2) h)

theorem inRange_of_inside {grid : Dim3} (h : grid.InRange) {cta : Cta}
    (hcta : inside grid cta = true) : InRange cta := by
  simp only [inside, Bool.and_eq_true, decide_eq_true_iff] at hcta
  obtain ⟨hx, hy, hz⟩ := h
  intro n hn
  simp only [Cta.coordinates, List.mem_cons, List.not_mem_nil, or_false] at hn
  rcases hn with rfl | rfl | rfl <;> omega

theorem checkedProduct_ok {a b n : ℕ} (h : checkedProduct a b = .ok n) : n = a * b := by
  unfold checkedProduct at h
  split at h
  · cases h
  · exact (Except.ok.inj h).symm

theorem volume_ok {d : Dim3} {n : ℕ} (h : d.volume = .ok n) : n = d.x * d.y * d.z := by
  obtain ⟨xy, hxy, h⟩ := bind_ok h
  rw [checkedProduct_ok h, checkedProduct_ok hxy]

/-- The selected CTAs of the grid, as the host counts them. -/
theorem ctas_counted {ctas : List Cta} (h : ctas.Pairwise (· < ·)) (grid : Dim3) :
    (if ctas = [] then grid.x * grid.y * grid.z else ctas.countP (inside grid)) =
      ((gridCtas grid).filter fun cta => ctas = [] ∨ cta ∈ ctas).card := by
  split_ifs with hnil
  · rw [← card_gridCtas, Finset.filter_true_of_mem fun _ _ => .inl hnil]
  · have hnodup : ctas.Nodup := h.imp fun hlt => hlt.ne
    rw [List.countP_eq_length_filter, ← List.toFinset_card_of_nodup (hnodup.filter _)]
    congr 1
    ext cta
    simp only [List.mem_toFinset, List.mem_filter, Finset.mem_filter, mem_gridCtas, hnil, false_or]
    exact and_comm

theorem warpCounted_iff {capture : CaptureSelector} (h : capture.Good) {threads warp : ℕ}
    (hwarp : warp < warpCount threads) :
    warpCounted capture threads warp = true ↔ (capture.warps = [] ∨ warp ∈ capture.warps) ∧
      blockMask (liveLanes threads warp) &&& laneMask capture.lanes ≠ 0#32 := by
  rw [lanes_meet h hwarp, warpCounted, Bool.and_eq_true, Bool.or_eq_true, decide_eq_true_iff,
    binarySearch_iff (IsCapture.pairwise h.warps)]
  refine and_congr_right fun _ => ?_
  cases capture.lanes <;> simp

/-- Where the host's count does not overflow, it is the number of warps that the device
counts if every warp of the launch enters once with all of its threads. -/
theorem expectedEntries_eq {config : Config} (h : config.capture.Good) {grid block : Dim3}
    (hgrid : grid.InRange) {n : ℕ} (hn : expectedEntries config grid block = .ok n) :
    n = ((launchWarps grid (block.x * block.y * block.z)).filter fun w =>
      (deviceConfig config).counts (block.x * block.y * block.z) w = true).card := by
  obtain ⟨threads, hthreads, hn⟩ := bind_ok hn
  obtain rfl := volume_ok hthreads
  generalize block.x * block.y * block.z = threads at hn ⊢
  split at hn
  · cases hn
  obtain ⟨all, hall, hn⟩ := bind_ok hn
  obtain rfl := volume_ok hall
  rw [checkedProduct_ok hn, ctas_counted (IsCapture.pairwise h.ctas)]
  have hwarps : (List.range (warpCount threads)).countP (warpCounted config.capture threads) =
      ((Finset.range (warpCount threads)).filter fun warp =>
        warpCounted config.capture threads warp = true).card := by
    rw [List.countP_eq_length_filter,
      ← List.toFinset_card_of_nodup (List.nodup_range.filter _)]
    congr 1
    ext warp
    simp
  rw [hwarps, ← Finset.card_product]
  congr 1
  ext ⟨cta, warp⟩
  simp only [Finset.mem_product, Finset.mem_filter, launchWarps, Finset.mem_range, mem_gridCtas,
    PlanDeviceConfig.counts, Bool.and_eq_true, decide_eq_true_iff]
  constructor
  · rintro ⟨⟨hcta, hctas⟩, hwarp, hcounted⟩
    obtain ⟨hwarps, hlanes⟩ := (warpCounted_iff h hwarp).mp hcounted
    exact ⟨⟨hcta, hwarp⟩, (geometrySelected_iff h (inRange_of_inside hgrid hcta) warp).mpr
      ⟨hctas, hwarps⟩, hlanes⟩
  · rintro ⟨⟨hcta, hwarp⟩, hselected, hlanes⟩
    obtain ⟨hctas, hwarps⟩ :=
      (geometrySelected_iff h (inRange_of_inside hgrid hcta) warp).mp hselected
    exact ⟨⟨hcta, hctas⟩, hwarp, (warpCounted_iff h hwarp).mpr ⟨hwarps, hlanes⟩⟩

def fourthLane : Config := ⟨"a", [], ⟨true, []⟩, ⟨[], [], [3]⟩, ⟨1, 1⟩, []⟩

/-- Blocks of 34 threads have a second warp, with two lanes. -/
theorem expectedEntries_eq_fourthLane :
    expectedEntries fourthLane ⟨2, 1, 1⟩ ⟨34, 1, 1⟩ = .ok 2 ∧
      2 = ((launchWarps ⟨2, 1, 1⟩ 34).filter fun w =>
        (deviceConfig fourthLane).counts 34 w = true).card := by
  have hgood : fourthLane.capture.Good :=
    ⟨.inl rfl, .inl rfl, .inr (isSelection_singleton (by decide))⟩
  have hgrid : Dim3.InRange ⟨2, 1, 1⟩ := ⟨by decide, by decide, by decide⟩
  have hn : expectedEntries fourthLane ⟨2, 1, 1⟩ ⟨34, 1, 1⟩ = .ok 2 := by decide +kernel
  have hcount := expectedEntries_eq hgood hgrid hn
  exact ⟨hn, hcount⟩

end CuTracer.PlanRuntime
