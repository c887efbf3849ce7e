import CuTracer.Delay.Replay
import CuTracer.Library.Fallible
import CuTracer.Library.JsonMap
import CuTracer.Reduce.Config
import CuTracer.Trace.Offsets

/-! Three readers of one delay config. The trace resolves the PCs it targets, the replay
loads the points it delays, and the mutator parses the points it toggles. The first two take
a PC from different places, so they agree where every point is stored under its own PC. -/

namespace CuTracer.Trace

open Delay (DelayInstrumentationPoint KernelDelayInjectConfig Fields)
open Json (Distinct assemble field ordered orderedFields)
open Reduce (DelayConfig DelayConfigMutator DelayPoint InstrumentationPoint KernelDelayConfig PointKey)

/-! ### The mutator's document -/

def readText : Option Json → Option (Option String)
  | none => some none
  | some (.str s) => some (some s)
  | some _ => none

def readInt : Option Json → Option (Option ℤ)
  | none => some none
  | some (.int i) => some (some i)
  | some _ => none

def readBool : Option Json → Option (Option Bool)
  | none => some none
  | some (.bool b) => some (some b)
  | some _ => none

def readPoint : Json → Option InstrumentationPoint
  | .obj fields => do
    let sass ← readText (field fields "sass")
    let delay ← readInt (field fields "delay")
    let on ← readBool (field fields "on")
    return ⟨sass, delay, on⟩
  | _ => none

/-- The values of an object, each read in place. -/
def readFields {α : Type} (read : Json → Option α) (fields : Fields) : Option (Dict String α) := do
  let entries ← fields.mapM fun f => (read f.2).map fun v => (f.1, v)
  if h : (entries.map Prod.fst).Nodup then return ⟨entries, h⟩ else none

def readObject : Option Json → Option Fields
  | none => some []
  | some (.obj fields) => some fields
  | some _ => none

def readKernel : Json → Option KernelDelayConfig
  | .obj fields => do
    let kernelName ← readText (field fields "kernel_name")
    let points ← readObject (field fields "instrumentation_points")
    return ⟨kernelName, ← readFields readPoint points⟩
  | _ => none

/-- A document as the mutator holds it, if its values have their types. -/
def readDelayConfig (document : Fields) : Option DelayConfig := do
  let kernels ← readObject (field document "kernels")
  return ⟨← readFields readKernel kernels⟩

/-! ### Points by their keys -/

def pointAt (kernels : Fields) (checksum : String) (key : PointKey) : Option Json :=
  ((field kernels key.1).bind (matchedPoints checksum)).bind fun points => field points key.2

theorem pointAt_iff {kernels : Fields} (h : Distinct (.obj kernels)) {checksum : String} {key : PointKey}
    {point : Json} :
    pointAt kernels checksum key = some point ↔ ∃ kernel points, (key.1, kernel) ∈ kernels ∧
      matchedPoints checksum kernel = some points ∧ (key.2, point) ∈ points := by
  obtain ⟨hkeys, hvalues⟩ := Json.distinct_obj.mp h
  have hpoints : ∀ f ∈ kernels, ∀ points, matchedPoints checksum f.2 = some points →
      (points.map Prod.fst).Nodup := by
    intro f hf points hmatched
    have hf' := hvalues f hf
    unfold matchedPoints at hmatched
    split at hmatched
    · rename_i kernel hobj
      rw [hobj] at hf'
      split_ifs at hmatched
      split at hmatched
      · rename_i points' hfield
        cases hmatched
        have hmem := Dict.mem_of_lookup hfield
        exact (Json.distinct_obj.mp ((Json.distinct_obj.mp hf').2 _ hmem)).1
      · cases hmatched
        exact List.nodup_nil
    · cases hmatched
  simp only [pointAt, Option.bind_eq_some_iff]
  constructor
  · rintro ⟨points, ⟨kernel, hkernel, hmatched⟩, hpoint⟩
    exact ⟨kernel, points, Dict.mem_of_lookup hkernel, hmatched, Dict.mem_of_lookup hpoint⟩
  · rintro ⟨kernel, points, hkernel, hmatched, hpoint⟩
    refine ⟨points, ⟨kernel, (Dict.lookup_eq_some_iff hkeys _ _).mpr hkernel, hmatched⟩, ?_⟩
    exact (Dict.lookup_eq_some_iff (hpoints _ hkernel points hmatched) _ _).mpr hpoint

/-! ### The offsets of a trace -/

theorem mem_pointOffsets {points : Fields} {offsets : List String} (h : pointOffsets points = .ok offsets)
    (text : String) :
    text ∈ offsets ↔ ∃ f ∈ points, pointSelected f.2 = true ∧
      ∃ pc, pointPc f.1 f.2 = some pc ∧ text = hexInt pc := by
  induction points generalizing offsets with
  | nil =>
    cases h
    simp
  | cons f points ih =>
    obtain ⟨key, point⟩ := f
    rw [pointOffsets] at h
    obtain ⟨offset, hoffset, h⟩ := bind_ok h
    obtain ⟨rest, hrest, h⟩ := bind_ok h
    cases h
    rw [List.mem_append, ih hrest, List.exists_mem_cons_iff]
    refine or_congr_left ?_
    unfold enabledPointOffset at hoffset
    split_ifs at hoffset with hselected
    · cases hpc : pointPc key point with
      | none => simp [hpc] at hoffset
      | some pc =>
        simp only [hpc] at hoffset
        cases hoffset
        simp [hselected]
    · cases hoffset
      simp [hselected]

theorem mem_matchingConfigOffsets {checksum : String} {kernels : Fields} {offsets : List String}
    {matched : Bool} (h : matchingConfigOffsets checksum kernels = .ok (offsets, matched)) (text : String) :
    text ∈ offsets ↔ ∃ k ∈ kernels, ∃ points, matchedPoints checksum k.2 = some points ∧
      ∃ f ∈ points, pointSelected f.2 = true ∧ ∃ pc, pointPc f.1 f.2 = some pc ∧ text = hexInt pc := by
  induction kernels generalizing offsets matched with
  | nil =>
    obtain ⟨rfl, -⟩ := Prod.ext_iff.mp (Except.ok.inj h)
    simp
  | cons k kernels ih =>
    obtain ⟨name, kernel⟩ := k
    rw [matchingConfigOffsets] at h
    cases hmatched : matchedPoints checksum kernel with
    | none =>
      simp only [hmatched] at h
      rw [ih h, List.exists_mem_cons_iff]
      simp [hmatched]
    | some points =>
      simp only [hmatched] at h
      obtain ⟨own, hown, h⟩ := bind_ok h
      obtain ⟨⟨others, flag⟩, hothers, h⟩ := bind_ok h
      obtain ⟨rfl, -⟩ := Prod.ext_iff.mp (Except.ok.inj h)
      rw [List.mem_append, mem_pointOffsets hown, ih hothers, List.exists_mem_cons_iff]
      simp [hmatched]

/-- What a trace that returns offsets has read. -/
theorem configPcOffsets_ok {files : Files} {spec : Service.ExperimentSpec} {options : Service.TraceOptions}
    {resolved : Option String} {path : String} {document : Fields} {pinned : Service.KernelId}
    {offsets : List String} (hpath : resolvedTraceConfigPath files options resolved = .ok (some path))
    (hdocument : files.load path = .ok (.obj document)) (hpinned : spec.unit.kernel = some pinned)
    (h : configPcOffsets files spec options resolved = .ok offsets) :
    ∃ kernels, field document "kernels" = some (.obj kernels) ∧
      matchingConfigOffsets pinned.cubinHash kernels = .ok (offsets, true) ∧ offsets ≠ [] := by
  unfold configPcOffsets at h
  simp only [hpath, ok_bind, hdocument] at h
  split at h
  · rename_i kernels hkernels
    obtain ⟨kernel, hkernel, h⟩ := bind_ok h
    have hsome : kernel = some pinned := by
      unfold selectedKernel at hkernel
      split_ifs at hkernel
      rw [← Except.ok.inj hkernel, hpinned]
    subst hsome
    obtain ⟨⟨found, matched⟩, hfound, h⟩ := bind_ok h
    dsimp only at h
    split_ifs at h with hmatched hnil
    cases h
    have htrue : matched = true := by simpa using hmatched
    exact ⟨kernels, hkernels, htrue ▸ hfound, hnil⟩
  · cases h

/-! ### Loading a sorted document -/

section Loading

variable {ε α κ ν : Type} [DecidableEq κ] {load : α → Except ε (κ × ν)}

theorem loaded_of_foldlM {xs : List α} {d d' : Dict κ ν}
    (h : xs.foldlM (fun d x => (load x).map fun e => d.insert e.1 e.2) d = .ok d') :
    ∀ x ∈ xs, ∃ e, load x = .ok e := by
  induction xs generalizing d with
  | nil => simp
  | cons x xs ih =>
    rw [List.foldlM_cons] at h
    obtain ⟨d₁, hd₁, h⟩ := bind_ok h
    obtain ⟨e, he, -⟩ := map_ok hd₁
    intro y hy
    rcases List.mem_cons.mp hy with rfl | hy
    · exact ⟨e, he⟩
    · exact ih h y hy

omit [DecidableEq κ] in
theorem nodup_loaded {xs : List α} (hxs : xs.Nodup)
    (hkeys : ∀ x ∈ xs, ∀ y ∈ xs, ∀ e e', load x = .ok e → load y = .ok e' → e.1 = e'.1 → x = y) :
    (((xs.map load).filterMap Except.toOption).map Prod.fst).Nodup := by
  induction xs with
  | nil => exact List.nodup_nil
  | cons x xs ih =>
    obtain ⟨hx, hxs⟩ := List.nodup_cons.mp hxs
    have hrest := ih hxs fun y hy z hz =>
      hkeys y (List.mem_cons_of_mem _ hy) z (List.mem_cons_of_mem _ hz)
    rw [List.map_cons]
    cases he : load x with
    | error error => simpa [List.filterMap_cons, Except.toOption] using hrest
    | ok e =>
      rw [List.filterMap_cons, Except.toOption, List.map_cons, List.nodup_cons]
      refine ⟨fun hmem => ?_, hrest⟩
      obtain ⟨e', he', hfst⟩ := List.mem_map.mp hmem
      obtain ⟨loaded, hloaded, hopt⟩ := List.mem_filterMap.mp he'
      obtain ⟨y, hy, rfl⟩ := List.mem_map.mp hloaded
      have hload : load y = .ok e' := toOption_eq_some.mp hopt
      exact hx (hkeys x List.mem_cons_self y (List.mem_cons_of_mem _ hy) e e' he hload hfst.symm ▸ hy)

/-- A map that is loaded under different keys has what was loaded. -/
theorem get?_loaded {xs : List α} (hxs : xs.Nodup)
    (hkeys : ∀ x ∈ xs, ∀ y ∈ xs, ∀ e e', load x = .ok e → load y = .ok e' → e.1 = e'.1 → x = y)
    {d : Dict κ ν}
    (h : xs.foldlM (fun d x => (load x).map fun e => d.insert e.1 e.2) Dict.empty = .ok d)
    (k : κ) (v : ν) : d.get? k = some v ↔ ∃ x ∈ xs, load x = .ok (k, v) := by
  have hnodup := nodup_loaded hxs hkeys
  rw [Delay.foldlM_insert (loaded_of_foldlM h)] at h
  rw [← Except.ok.inj h, Dict.get?_foldl_insert hnodup, Dict.get?_empty, Option.or_none,
    Dict.lookup_eq_some_iff hnodup, List.mem_filterMap]
  simp only [List.mem_map]
  constructor
  · rintro ⟨_, ⟨x, hx, rfl⟩, hopt⟩
    exact ⟨x, hx, toOption_eq_some.mp hopt⟩
  · rintro ⟨x, hx, hload⟩
    exact ⟨_, ⟨x, hx, rfl⟩, by rw [hload]; rfl⟩

end Loading

theorem valueText_ordered {j : Json} (h : Distinct j) (key fallback : String) :
    Delay.valueText (ordered j) key fallback = Delay.valueText j key fallback := by
  cases j with
  | obj fields =>
    rw [ordered, Delay.valueText, Delay.valueText, Json.field_ordered (Json.distinct_obj.mp h).1]
    cases field fields key with
    | none => rfl
    | some v => cases v <;> rfl
  | _ => rfl

theorem valueUInt32_ordered {j : Json} (h : Distinct j) (key : String) :
    Delay.valueUInt32 (ordered j) key = Delay.valueUInt32 j key := by
  cases j with
  | obj fields =>
    rw [ordered, Delay.valueUInt32, Delay.valueUInt32, Json.field_ordered (Json.distinct_obj.mp h).1]
    cases field fields key with
    | none => rfl
    | some v => cases v <;> rfl
  | _ => rfl

theorem valueBool_ordered {j : Json} (h : Distinct j) (key : String) :
    Delay.valueBool (ordered j) key = Delay.valueBool j key := by
  cases j with
  | obj fields =>
    rw [ordered, Delay.valueBool, Delay.valueBool, Json.field_ordered (Json.distinct_obj.mp h).1]
    cases field fields key with
    | none => rfl
    | some v => cases v <;> rfl
  | _ => rfl

theorem loadPoint_ordered {j : Json} (h : Distinct j) (key : String) :
    Delay.loadPoint key (ordered j) = Delay.loadPoint key j := by
  unfold Delay.loadPoint
  rw [valueText_ordered h, valueUInt32_ordered h, valueBool_ordered h, valueUInt32_ordered h]

theorem loadPoint_ok {key : String} {j : Json} {p : DelayInstrumentationPoint}
    (h : Delay.loadPoint key j = .ok p) :
    Delay.stoull key = .ok p.pcOffset ∧ Delay.valueBool j "on" = .ok p.enabled := by
  unfold Delay.loadPoint at h
  obtain ⟨pc, hpc, h⟩ := bind_ok h
  obtain ⟨sass, -, h⟩ := bind_ok h
  obtain ⟨delay, -, h⟩ := bind_ok h
  obtain ⟨on, hon, h⟩ := bind_ok h
  obtain ⟨seed, -, h⟩ := bind_ok h
  rw [← Except.ok.inj h]
  exact ⟨hpc, hon⟩

/-- A kernel of a sorted document, and its points if they are an object. -/
theorem loadKernel_ordered {kernel : Json} (hdistinct : Distinct kernel) {kdc : KernelDelayInjectConfig}
    (h : Delay.loadKernel (ordered kernel) = .ok kdc) :
    Delay.valueText kernel "kernel_checksum" "" = .ok kdc.kernelChecksum ∧
      ∀ points, Delay.member kernel "instrumentation_points" = some (.obj points) →
        Delay.loadPoints (assemble (orderedFields points)) = .ok kdc.instrumentationPoints := by
  unfold Delay.loadKernel at h
  obtain ⟨name, -, h⟩ := bind_ok h
  obtain ⟨checksum, hchecksum, h⟩ := bind_ok h
  obtain ⟨timestamp, -, h⟩ := bind_ok h
  obtain ⟨loaded, hloaded, h⟩ := bind_ok h
  rw [← Except.ok.inj h]
  rw [valueText_ordered hdistinct] at hchecksum
  refine ⟨hchecksum, fun points hpoints => ?_⟩
  cases kernel with
  | obj fields =>
    have hmember : Delay.member (ordered (.obj fields)) "instrumentation_points" =
        some (ordered (.obj points)) := by
      rw [ordered, Delay.member, Json.field_ordered (Json.distinct_obj.mp hdistinct).1]
      rw [Delay.member] at hpoints
      rw [hpoints]
      rfl
    rw [hmember] at hloaded
    exact hloaded
  | _ => cases hpoints

theorem loadPoints_eq (points : Fields) :
    Delay.loadPoints points = points.foldlM (fun d f =>
      ((Delay.loadPoint f.1 f.2).map fun p => (p.pcOffset, p)).map fun e => d.insert e.1 e.2)
        Dict.empty := by
  unfold Delay.loadPoints
  congr 1
  funext d f
  cases Delay.loadPoint f.1 f.2 <;> rfl

theorem loadKernels_eq (kernels : Fields) :
    Delay.loadKernels kernels = kernels.foldlM (fun d f =>
      ((Delay.loadKernel f.2).map fun kdc => (f.1, kdc)).map fun e => d.insert e.1 e.2) Dict.empty := by
  unfold Delay.loadKernels
  congr 1
  funext d f
  cases Delay.loadKernel f.2 <;> rfl

theorem mem_ordered {fields : Fields} (h : (fields.map Prod.fst).Nodup) {f : String × Json} :
    f ∈ assemble (orderedFields fields) ↔ ∃ v, (f.1, v) ∈ fields ∧ f.2 = ordered v := by
  rw [(Json.ordered_perm h).mem_iff, List.mem_map]
  constructor
  · rintro ⟨g, hg, rfl⟩
    exact ⟨g.2, hg, rfl⟩
  · rintro ⟨v, hv, heq⟩
    exact ⟨(f.1, v), hv, Prod.ext rfl heq.symm⟩

theorem nodup_ordered {fields : Fields} (h : (fields.map Prod.fst).Nodup) :
    (assemble (orderedFields fields)).Nodup := by
  rw [(Json.ordered_perm h).nodup_iff]
  apply List.Nodup.of_map Prod.fst
  rw [List.map_map]
  exact h

theorem get?_loadKernels {kernels : Fields} (hdistinct : Distinct (.obj kernels))
    {d : Dict String KernelDelayInjectConfig}
    (h : Delay.loadKernels (assemble (orderedFields kernels)) = .ok d) (name : String)
    (kdc : KernelDelayInjectConfig) :
    d.get? name = some kdc ↔
      ∃ kernel, (name, kernel) ∈ kernels ∧ Delay.loadKernel (ordered kernel) = .ok kdc := by
  obtain ⟨hkeys, -⟩ := Json.distinct_obj.mp hdistinct
  have hsame : ∀ f ∈ assemble (orderedFields kernels), ∀ g ∈ assemble (orderedFields kernels),
      ∀ e e', (Delay.loadKernel f.2).map (fun kdc => (f.1, kdc)) = .ok e →
        (Delay.loadKernel g.2).map (fun kdc => (g.1, kdc)) = .ok e' → e.1 = e'.1 → f = g := by
    intro f hf g hg e e' he he' hfst
    obtain ⟨v, hv, hfv⟩ := (mem_ordered hkeys).mp hf
    obtain ⟨w, hw, hgw⟩ := (mem_ordered hkeys).mp hg
    obtain ⟨kdc, -, rfl⟩ := map_ok he
    obtain ⟨kdc', -, rfl⟩ := map_ok he'
    dsimp only at hfst
    have hvalue := (Dict.lookup_eq_some_iff hkeys f.1 v).mpr hv
    rw [hfst, (Dict.lookup_eq_some_iff hkeys g.1 w).mpr hw] at hvalue
    exact Prod.ext hfst (by rw [hfv, hgw, Option.some.inj hvalue])
  rw [loadKernels_eq] at h
  rw [get?_loaded (nodup_ordered hkeys) hsame h]
  constructor
  · rintro ⟨f, hf, hload⟩
    obtain ⟨v, hv, hfv⟩ := (mem_ordered hkeys).mp hf
    obtain ⟨kdc', hkdc, heq⟩ := map_ok hload
    obtain ⟨rfl, rfl⟩ := Prod.ext_iff.mp heq
    exact ⟨v, hv, hfv ▸ hkdc⟩
  · rintro ⟨kernel, hmem, hload⟩
    exact ⟨(name, ordered kernel), (mem_ordered hkeys).mpr ⟨kernel, hmem, rfl⟩, by rw [hload]; rfl⟩

/-- The points of a kernel in a replay, if no two keys are the same offset. -/
theorem get?_loadPoints {points : Fields} (hdistinct : Distinct (.obj points))
    (hoffsets : ∀ f ∈ points, ∀ g ∈ points, Delay.stoull f.1 = Delay.stoull g.1 → f = g)
    {d : Dict UInt64 DelayInstrumentationPoint}
    (h : Delay.loadPoints (assemble (orderedFields points)) = .ok d) (pc : UInt64)
    (p : DelayInstrumentationPoint) :
    d.get? pc = some p ↔ ∃ f ∈ points, Delay.loadPoint f.1 f.2 = .ok p ∧ p.pcOffset = pc := by
  obtain ⟨hkeys, hvalues⟩ := Json.distinct_obj.mp hdistinct
  have hsame : ∀ f ∈ assemble (orderedFields points), ∀ g ∈ assemble (orderedFields points),
      ∀ e e', (Delay.loadPoint f.1 f.2).map (fun p => (p.pcOffset, p)) = .ok e →
        (Delay.loadPoint g.1 g.2).map (fun p => (p.pcOffset, p)) = .ok e' → e.1 = e'.1 → f = g := by
    intro f hf g hg e e' he he' hfst
    obtain ⟨v, hv, hfv⟩ := (mem_ordered hkeys).mp hf
    obtain ⟨w, hw, hgw⟩ := (mem_ordered hkeys).mp hg
    obtain ⟨p, hp, rfl⟩ := map_ok he
    obtain ⟨p', hp', rfl⟩ := map_ok he'
    dsimp only at hfst
    have hpoint := hoffsets (f.1, v) hv (g.1, w) hw
      (by rw [(loadPoint_ok hp).1, (loadPoint_ok hp').1, hfst])
    obtain ⟨hname, hvalue⟩ := Prod.ext_iff.mp hpoint
    exact Prod.ext hname (by rw [hfv, hgw]; exact congrArg ordered hvalue)
  rw [loadPoints_eq] at h
  rw [get?_loaded (nodup_ordered hkeys) hsame h]
  constructor
  · rintro ⟨f, hf, hload⟩
    obtain ⟨v, hv, hfv⟩ := (mem_ordered hkeys).mp hf
    obtain ⟨p', hp, heq⟩ := map_ok hload
    obtain ⟨hpc, rfl⟩ := Prod.ext_iff.mp heq
    rw [hfv, loadPoint_ordered (hvalues _ hv)] at hp
    exact ⟨(f.1, v), hv, hp, hpc⟩
  · rintro ⟨f, hf, hload, rfl⟩
    refine ⟨(f.1, ordered f.2), (mem_ordered hkeys).mpr ⟨f.2, hf, rfl⟩, ?_⟩
    rw [loadPoint_ordered (hvalues f hf), hload]
    rfl

/-! ### What the mutator parses -/

theorem mem_mapM {α β : Type} {f : α → Option β} {xs : List α} {ys : List β} (h : xs.mapM f = some ys) :
    (∀ y, y ∈ ys ↔ ∃ x ∈ xs, f x = some y) ∧ ∀ x ∈ xs, ∃ y, f x = some y := by
  induction xs generalizing ys with
  | nil =>
    cases h
    simp
  | cons x xs ih =>
    simp only [List.mapM_cons, Option.bind_eq_bind, Option.bind_eq_some_iff, Option.pure_def,
      Option.some.injEq] at h
    obtain ⟨y, hy, ys, hys, rfl⟩ := h
    obtain ⟨hmem, hall⟩ := ih hys
    constructor
    · intro y'
      rw [List.mem_cons, hmem, List.exists_mem_cons_iff, hy, Option.some.injEq, eq_comm]
    · intro x' hx'
      rcases List.mem_cons.mp hx' with rfl | hx'
      · exact ⟨y, hy⟩
      · exact hall x' hx'

theorem mem_readFields {α : Type} {read : Json → Option α} {fields : Fields} {d : Dict String α}
    (h : readFields read fields = some d) :
    (∀ e, e ∈ d.entries ↔ ∃ j, (e.1, j) ∈ fields ∧ read j = some e.2) ∧
      ∀ f ∈ fields, ∃ v, read f.2 = some v := by
  unfold readFields at h
  obtain ⟨entries, hentries, h⟩ := Option.bind_eq_some_iff.mp h
  split_ifs at h
  cases h
  obtain ⟨hmem, hall⟩ := mem_mapM hentries
  constructor
  · rintro ⟨k, v⟩
    rw [hmem]
    constructor
    · rintro ⟨f, hf, heq⟩
      obtain ⟨v', hv', hpair⟩ := Option.map_eq_some_iff.mp heq
      obtain ⟨rfl, rfl⟩ := Prod.ext_iff.mp hpair
      exact ⟨f.2, hf, hv'⟩
    · rintro ⟨j, hj, hread⟩
      exact ⟨(k, j), hj, by rw [hread]; rfl⟩
  · intro f hf
    obtain ⟨e, he⟩ := hall f hf
    obtain ⟨v, hv, -⟩ := Option.map_eq_some_iff.mp he
    exact ⟨v, hv⟩

/-- Every kernel of a config that the mutator holds, and every point of a kernel. -/
theorem readKernel_points {kernel : Json} {kdc : KernelDelayConfig} (h : readKernel kernel = some kdc)
    {checksum : String} {points : Fields} (hpoints : matchedPoints checksum kernel = some points) :
    (∀ e, e ∈ kdc.instrumentationPoints.entries ↔
        ∃ j, (e.1, j) ∈ points ∧ readPoint j = some e.2) ∧
      ∀ f ∈ points, ∃ v, readPoint f.2 = some v := by
  cases kernel with
  | obj fields =>
    simp only [readKernel, Option.bind_eq_bind, Option.bind_eq_some_iff, Option.pure_def,
      Option.some.injEq] at h
    obtain ⟨name, -, object, hobject, d, hd, rfl⟩ := h
    have hsame : object = points := by
      simp only [matchedPoints] at hpoints
      split_ifs at hpoints
      cases hfield : field fields "instrumentation_points" with
      | none =>
        rw [hfield] at hobject hpoints
        exact (Option.some.inj hobject).symm.trans (Option.some.inj hpoints)
      | some v =>
        rw [hfield] at hobject hpoints
        cases v with
        | obj fields' => exact (Option.some.inj hobject).symm.trans (Option.some.inj hpoints)
        | _ => cases hobject
    exact mem_readFields (hsame ▸ hd)
  | _ => cases h

def States (point : Json) : Prop := (Delay.member point "on").isSome

/-- A point that the mutator holds and that says whether it is on. -/
theorem pointSelected_of_readPoint {point : Json} {read : InstrumentationPoint}
    (h : readPoint point = some read) (hstates : States point) :
    pointSelected point = read.on.getD false := by
  cases point with
  | obj fields =>
    simp only [readPoint, Option.bind_eq_bind, Option.bind_eq_some_iff, Option.pure_def,
      Option.some.injEq] at h
    obtain ⟨sass, -, delay, -, on, hon, rfl⟩ := h
    rw [States, Delay.member] at hstates
    obtain ⟨v, hv⟩ := Option.isSome_iff_exists.mp hstates
    rw [hv] at hon
    cases v with
    | bool b =>
      cases hon
      simp only [pointSelected, hv, Option.getD_some, Json.truthy]
    | _ => cases hon
  | _ => cases h

theorem mem_enabledPoints {config : DelayConfig} {p : DelayPoint} :
    p ∈ (DelayConfigMutator.load config).enabledPoints ↔
      (∃ k ∈ config.kernels.entries, ∃ e ∈ k.2.instrumentationPoints.entries,
        Reduce.parsePoint k.1 (k.2.kernelName.getD k.1) e = p) ∧ p.enabled = true := by
  simp only [DelayConfigMutator.enabledPoints, DelayConfigMutator.load, Reduce.parseDelayPoints,
    Reduce.parseKernel, List.mem_filter, List.mem_flatMap, List.mem_map]

variable {document kernels : Fields} {checksum : String} {offsets : List String} {matched : Bool}

/-- Where every point says whether it is on, a trace takes the points that the mutator counts
as enabled. -/
theorem offsets_iff_mutator (hdistinct : Distinct (.obj document))
    (hkernels : field document "kernels" = some (.obj kernels))
    (hoffsets : matchingConfigOffsets checksum kernels = .ok (offsets, matched))
    (hstates : ∀ key point, pointAt kernels checksum key = some point → States point)
    {config : DelayConfig} (hconfig : readDelayConfig document = some config) (text : String) :
    text ∈ offsets ↔ ∃ p ∈ (DelayConfigMutator.load config).enabledPoints, ∃ point pc,
      pointAt kernels checksum p.key = some point ∧ pointPc p.pcOffset point = some pc ∧
        text = hexInt pc := by
  have hdistinctKernels : Distinct (.obj kernels) :=
    (Json.distinct_obj.mp hdistinct).2 _ (Dict.mem_of_lookup hkernels)
  simp only [readDelayConfig, hkernels, readObject, Option.bind_eq_bind, Option.bind_some,
    Option.pure_def, Option.bind_eq_some_iff, Option.some.injEq] at hconfig
  obtain ⟨d, hd, rfl⟩ := hconfig
  obtain ⟨hentries, hall⟩ := mem_readFields hd
  rw [mem_matchingConfigOffsets hoffsets]
  constructor
  · rintro ⟨⟨name, kernel⟩, hkernel, points, hpoints, ⟨key, point⟩, hpoint, hselected, pc, hpc, rfl⟩
    obtain ⟨kdc, hkdc⟩ := hall _ hkernel
    obtain ⟨hread, hreadable⟩ := readKernel_points hkdc hpoints
    obtain ⟨read, hreads⟩ := hreadable _ hpoint
    have hat : pointAt kernels checksum (name, key) = some point :=
      (pointAt_iff hdistinctKernels).mpr ⟨kernel, points, hkernel, hpoints, hpoint⟩
    have hon := pointSelected_of_readPoint hreads (hstates _ _ hat)
    refine ⟨Reduce.parsePoint name (kdc.kernelName.getD name) (key, read), ?_, point, pc, hat, hpc, rfl⟩
    refine mem_enabledPoints.mpr ⟨⟨(name, kdc), (hentries _).mpr ⟨kernel, hkernel, hkdc⟩, (key, read),
      (hread _).mpr ⟨point, hpoint, hreads⟩, rfl⟩, ?_⟩
    exact hon.symm.trans hselected
  · rintro ⟨p, hp, point, pc, hat, hpc, rfl⟩
    obtain ⟨⟨k, hk, e, he, rfl⟩, henabled⟩ := mem_enabledPoints.mp hp
    obtain ⟨kernel, points, hkernel, hpoints, hpoint⟩ := (pointAt_iff hdistinctKernels).mp hat
    obtain ⟨kernel', hkernel', hkdc⟩ := (hentries _).mp hk
    have hsame : kernel' = kernel := by
      have hkeys := (Json.distinct_obj.mp hdistinctKernels).1
      have h := (Dict.lookup_eq_some_iff hkeys _ _).mpr hkernel
      exact Option.some.inj (((Dict.lookup_eq_some_iff hkeys _ _).mpr hkernel').symm.trans h)
    subst hsame
    obtain ⟨hread, -⟩ := readKernel_points hkdc hpoints
    obtain ⟨point', hpoint', hreads⟩ := (hread _).mp he
    have hat' : pointAt kernels checksum (k.1, e.1) = some point' :=
      (pointAt_iff hdistinctKernels).mpr ⟨kernel', points, hkernel, hpoints, hpoint'⟩
    have hsame : point' = point := Option.some.inj (hat'.symm.trans hat)
    subst hsame
    have hon := pointSelected_of_readPoint hreads (hstates _ _ hat)
    exact ⟨(k.1, kernel'), hkernel, points, hpoints, (e.1, point'), hpoint, hon.trans henabled, pc, hpc,
      rfl⟩

/-! ### What the replay delays -/

/-- A kernel that is found by its checksum alone, and whose points are stored under their
own PCs. -/
structure OwnPcs (kernels : Fields) (checksum : String) : Prop where
  /-- A missing checksum is read as the empty one. -/
  unique : ∀ k ∈ kernels, ∀ k' ∈ kernels,
    Delay.valueText k.2 "kernel_checksum" "" = .ok checksum →
      Delay.valueText k'.2 "kernel_checksum" "" = .ok checksum → k = k'
  distinct : ∀ key key' point point', pointAt kernels checksum key = some point →
    pointAt kernels checksum key' = some point' →
      Delay.stoull key.2 = Delay.stoull key'.2 → key = key'
  own : ∀ key point, pointAt kernels checksum key = some point → pointSelected point = true →
    ∃ pc, Delay.stoull key.2 = .ok pc ∧ pointPc key.2 point = some (pc.toNat : ℤ)

theorem matchedPoints_spec {kernel : Json} {points : Fields} (h : matchedPoints checksum kernel = some points)
    (hne : points ≠ []) : Delay.valueText kernel "kernel_checksum" "" = .ok checksum ∧
      Delay.member kernel "instrumentation_points" = some (.obj points) := by
  unfold matchedPoints at h
  split at h
  · rename_i fields
    split_ifs at h with hchecksum
    split at h
    · rename_i points' hfield
      cases h
      refine ⟨?_, hfield⟩
      rw [Delay.valueText]
      cases hc : field fields "kernel_checksum" with
      | none => simp [hc, Json.isStr] at hchecksum
      | some v =>
        cases v with
        | str s =>
          rw [hc, Json.isStr, decide_eq_true_eq] at hchecksum
          rw [hchecksum]
        | _ => simp [hc, Json.isStr] at hchecksum
    · exact absurd (Option.some.inj h).symm hne
  · cases h

theorem pointSelected_of_valueBool {point : Json} {on : Bool} (h : Delay.valueBool point "on" = .ok on)
    (hstates : States point) : pointSelected point = on := by
  cases point with
  | obj fields =>
    rw [States, Delay.member] at hstates
    obtain ⟨v, hv⟩ := Option.isSome_iff_exists.mp hstates
    rw [Delay.valueBool, hv] at h
    cases v with
    | bool b =>
      cases h
      simp only [pointSelected, hv, Option.getD_some, Json.truthy]
    | _ => cases h
  | _ => cases h

variable {parse : String → Option Json} {text : String} {replay : Delay.DelayInjectConfig}

theorem loadDelayConfig_kernels (hdistinct : Distinct (.obj document))
    (hkernels : field document "kernels" = some (.obj kernels))
    (hparse : parse text = some (ordered (.obj document)))
    (hload : Delay.loadDelayConfig parse (some text) = .ok replay) :
    Delay.loadKernels (assemble (orderedFields kernels)) = .ok replay.kernels := by
  have hmember : Delay.member (ordered (.obj document)) "kernels" = some (ordered (.obj kernels)) := by
    rw [ordered, Delay.member, Json.field_ordered (Json.distinct_obj.mp hdistinct).1, hkernels]
    rfl
  unfold Delay.loadDelayConfig at hload
  simp only [hparse] at hload
  obtain ⟨version, -, hload⟩ := bind_ok hload
  obtain ⟨delayNs, -, hload⟩ := bind_ok hload
  obtain ⟨d, hd, hload⟩ := bind_ok hload
  rw [← Except.ok.inj hload]
  rw [hmember] at hd
  exact hd

/-- Every kernel of a document that is accepted has loaded. -/
theorem exists_loaded (hdistinct : Distinct (.obj kernels)) {d : Dict String KernelDelayInjectConfig}
    (h : Delay.loadKernels (assemble (orderedFields kernels)) = .ok d) {k : String × Json}
    (hk : k ∈ kernels) :
    ∃ kdc, d.get? k.1 = some kdc ∧ Delay.loadKernel (ordered k.2) = .ok kdc := by
  have hkeys := (Json.distinct_obj.mp hdistinct).1
  have hmem : (k.1, ordered k.2) ∈ assemble (orderedFields kernels) :=
    (mem_ordered hkeys).mpr ⟨k.2, hk, rfl⟩
  have hloads := h
  rw [loadKernels_eq] at hloads
  obtain ⟨e, he⟩ := loaded_of_foldlM hloads _ hmem
  obtain ⟨kdc, hkdc, -⟩ := map_ok he
  exact ⟨kdc, (get?_loadKernels hdistinct h _ _).mpr ⟨k.2, hk, hkdc⟩, hkdc⟩

theorem replay_points (hdistinct : Distinct (.obj kernels)) (hown : OwnPcs kernels checksum)
    (hloads : Delay.loadKernels (assemble (orderedFields kernels)) = .ok replay.kernels)
    {k : String × Json} (hk : k ∈ kernels)
    (hchecksum : Delay.valueText k.2 "kernel_checksum" "" = .ok checksum)
    {kdc : KernelDelayInjectConfig} (hkdc : Delay.loadKernel (ordered k.2) = .ok kdc)
    {kernelName : String} {points : Option (Dict UInt64 DelayInstrumentationPoint)}
    (hpoints : Delay.getReplayInstrumentationPoints replay kernelName checksum = .ok points) :
    points = some kdc.instrumentationPoints := by
  have hvalues := (Json.distinct_obj.mp hdistinct).2
  have hown' := (loadKernel_ordered (hvalues k hk) hkdc).1
  have heq : kdc.kernelChecksum = checksum := Except.ok.inj (hown'.symm.trans hchecksum)
  have hentry : (k.1, kdc) ∈ replay.kernels.entries := by
    have hget := (get?_loadKernels hdistinct hloads k.1 kdc).mpr ⟨k.2, hk, hkdc⟩
    exact (Dict.get?_eq_some_iff _ _ _).mp hget
  unfold Delay.getReplayInstrumentationPoints at hpoints
  cases hfind : (sortOn Prod.fst replay.kernels.entries).find?
      fun e => e.2.kernelChecksum = checksum with
  | none =>
    rw [List.find?_eq_none] at hfind
    exact absurd (decide_eq_true heq) (hfind _ (mem_sortOn.mpr hentry))
  | some e =>
    have hmem := mem_sortOn.mp (List.mem_of_find?_eq_some hfind)
    have hfound : e.2.kernelChecksum = checksum := by simpa using List.find?_some hfind
    obtain ⟨kernel, hkernel, hload⟩ :=
      (get?_loadKernels hdistinct hloads e.1 e.2).mp ((Dict.get?_eq_some_iff _ _ _).mpr hmem)
    have hchecksum' := (loadKernel_ordered (hvalues _ hkernel) hload).1
    rw [hfound] at hchecksum'
    obtain rfl := hown.unique (e.1, kernel) hkernel k hk hchecksum' hchecksum
    have hsame : e.2 = kdc := Except.ok.inj (hload.symm.trans hkdc)
    simp only [hfind] at hpoints
    split_ifs at hpoints
    rw [← Except.ok.inj hpoints, hsame]

/-- Where every point says whether it is on and is stored under its own PC, a trace takes the
PCs that the replay delays. -/
theorem offsets_iff_replay (hdistinct : Distinct (.obj document))
    (hkernels : field document "kernels" = some (.obj kernels))
    (hoffsets : matchingConfigOffsets checksum kernels = .ok (offsets, matched)) (hne : offsets ≠ [])
    (hstates : ∀ key point, pointAt kernels checksum key = some point → States point)
    (hown : OwnPcs kernels checksum) (hparse : parse text = some (ordered (.obj document)))
    (hload : Delay.loadDelayConfig parse (some text) = .ok replay) {kernelName : String}
    {points : Option (Dict UInt64 DelayInstrumentationPoint)}
    (hpoints : Delay.getReplayInstrumentationPoints replay kernelName checksum = .ok points)
    (offset : String) :
    offset ∈ offsets ↔ ∃ pc delayNs clusterSeed,
      Delay.lookupReplayConfig points pc = some (true, delayNs, clusterSeed) ∧
        offset = hexInt pc.toNat := by
  have hdistinctKernels : Distinct (.obj kernels) :=
    (Json.distinct_obj.mp hdistinct).2 _ (Dict.mem_of_lookup hkernels)
  have hloads := loadDelayConfig_kernels hdistinct hkernels hparse hload
  have hmem := mem_matchingConfigOffsets hoffsets
  -- some point of the checksum is selected, so its kernel is the one that is found
  obtain ⟨first, hfirst⟩ := List.exists_mem_of_ne_nil _ hne
  obtain ⟨k, hk, own, hmatched, f, hf, -⟩ := (hmem first).mp hfirst
  obtain ⟨hchecksum, hmember⟩ := matchedPoints_spec hmatched (List.ne_nil_of_mem hf)
  obtain ⟨kdc, -, hkdc⟩ := exists_loaded hdistinctKernels hloads hk
  obtain rfl := replay_points hdistinctKernels hown hloads hk hchecksum hkdc hpoints
  have hat : ∀ f ∈ own, pointAt kernels checksum (k.1, f.1) = some f.2 := fun f hf =>
    (pointAt_iff hdistinctKernels).mpr ⟨k.2, own, hk, hmatched, hf⟩
  have hdistinctOwn : Distinct (.obj own) := by
    have hkernel := (Json.distinct_obj.mp hdistinctKernels).2 k hk
    cases hobj : k.2 with
    | obj fields =>
      rw [hobj] at hkernel hmember
      exact (Json.distinct_obj.mp hkernel).2 _ (Dict.mem_of_lookup hmember)
    | _ => simp [hobj, Delay.member] at hmember
  have hload := (loadKernel_ordered ((Json.distinct_obj.mp hdistinctKernels).2 k hk) hkdc).2 own hmember
  have hget := get?_loadPoints hdistinctOwn (fun f hf g hg hsame =>
    Prod.ext (congrArg Prod.snd (hown.distinct _ _ _ _ (hat f hf) (hat g hg) hsame))
      (by
        have hkeys := congrArg Prod.snd (hown.distinct _ _ _ _ (hat f hf) (hat g hg) hsame)
        have hf' := hat f hf
        dsimp only at hkeys
        rw [hkeys, hat g hg] at hf'
        exact (Option.some.inj hf').symm)) hload
  rw [hmem]
  constructor
  · rintro ⟨k', hk', points, hpoints', f, hf, hselected, pc, hpc, rfl⟩
    have hk'' := (matchedPoints_spec hpoints' (List.ne_nil_of_mem hf)).1
    obtain rfl := hown.unique k' hk' k hk hk'' hchecksum
    obtain rfl := Option.some.inj (hmatched.symm.trans hpoints')
    obtain ⟨u, hu, hown'⟩ := hown.own _ _ (hat f hf) hselected
    rw [hpc, Option.some.injEq] at hown'
    have hmemf : (f.1, ordered f.2) ∈ assemble (orderedFields own) :=
      (mem_ordered (Json.distinct_obj.mp hdistinctOwn).1).mpr ⟨f.2, hf, rfl⟩
    rw [loadPoints_eq] at hload
    obtain ⟨e, he⟩ := loaded_of_foldlM hload _ hmemf
    obtain ⟨p, hp, -⟩ := map_ok he
    rw [loadPoint_ordered ((Json.distinct_obj.mp hdistinctOwn).2 f hf)] at hp
    obtain ⟨hoffset, hon⟩ := loadPoint_ok hp
    have henabled := pointSelected_of_valueBool hon (hstates _ _ (hat f hf))
    have hpcOffset : p.pcOffset = u := Except.ok.inj (hoffset.symm.trans hu)
    refine ⟨u, p.delayNs, p.clusterSeed, ?_, by rw [hown']⟩
    rw [Delay.lookupReplayConfig, Option.bind_some, (hget u p).mpr ⟨f, hf, hp, hpcOffset⟩,
      Option.map_some, ← henabled, hselected]
  · rintro ⟨pc, delayNs, clusterSeed, hlookup, rfl⟩
    rw [Delay.lookupReplayConfig, Option.bind_some] at hlookup
    obtain ⟨p, hp, heq⟩ := Option.map_eq_some_iff.mp hlookup
    obtain ⟨f, hf, hloaded, rfl⟩ := (hget pc p).mp hp
    obtain ⟨hoffset, hon⟩ := loadPoint_ok hloaded
    have hselected := pointSelected_of_valueBool hon (hstates _ _ (hat f hf))
    simp only [Prod.mk.injEq] at heq
    rw [heq.1] at hselected
    obtain ⟨u, hu, hown'⟩ := hown.own _ _ (hat f hf) hselected
    have hu' : u = p.pcOffset := Except.ok.inj (hu.symm.trans hoffset)
    exact ⟨k, hk, own, hmatched, f, hf, hselected, _, hown', by rw [hu']⟩

/-- The three readers of a delay config that the replay accepts and the trace targets: where
every point of the kernel says whether it is on, the trace takes the PCs of the points that the
mutator counts as enabled, and if these are stored under their own PCs, those that the replay
delays. -/
theorem config_readers_agree {files : Files} {spec : Service.ExperimentSpec}
    {options : Service.TraceOptions} {resolved : Option String} {path : String}
    {pinned : Service.KernelId} (hpath : resolvedTraceConfigPath files options resolved = .ok (some path))
    (hdocument : files.load path = .ok (.obj document)) (hdistinct : Distinct (.obj document))
    (hpinned : spec.unit.kernel = some pinned) (hparse : parse text = some (ordered (.obj document)))
    (hload : Delay.loadDelayConfig parse (some text) = .ok replay)
    (hoffsets : configPcOffsets files spec options resolved = .ok offsets) :
    ∃ kernels, field document "kernels" = some (.obj kernels) ∧
      ((∀ key point, pointAt kernels pinned.cubinHash key = some point → States point) →
        (∀ config, readDelayConfig document = some config → ∀ offset,
          offset ∈ offsets ↔ ∃ p ∈ (DelayConfigMutator.load config).enabledPoints, ∃ point pc,
            pointAt kernels pinned.cubinHash p.key = some point ∧ pointPc p.pcOffset point = some pc ∧
              offset = hexInt pc) ∧
        (OwnPcs kernels pinned.cubinHash → ∀ kernelName points,
          Delay.getReplayInstrumentationPoints replay kernelName pinned.cubinHash = .ok points →
            ∀ offset, offset ∈ offsets ↔ ∃ pc delayNs clusterSeed,
              Delay.lookupReplayConfig points pc = some (true, delayNs, clusterSeed) ∧
                offset = hexInt pc.toNat)) := by
  obtain ⟨kernels, hkernels, hmatching, hne⟩ := configPcOffsets_ok hpath hdocument hpinned hoffsets
  refine ⟨kernels, hkernels, fun hstates => ⟨fun config hconfig offset => ?_, ?_⟩⟩
  · exact offsets_iff_mutator hdistinct hkernels hmatching hstates hconfig offset
  · intro hown kernelName points hpoints offset
    exact offsets_iff_replay hdistinct hkernels hmatching hne hstates hown hparse hload hpoints offset

/-! ### One kernel with one point -/

def sampleKernel : Service.KernelId := ⟨"gemm", "c0", none⟩

def sampleArtifact : Service.ArtifactRef := ⟨"file:///config.json", "config.json", none, none, ""⟩

def sampleOptions : Service.TraceOptions where
  mode := .regTrace
  traceSizeLimitMb := 1024
  selector := ⟨none, none, none, none, [], [], some .triggering⟩
  configArtifact := some sampleArtifact
  instrumentModes := []

def sampleSpec : Service.ExperimentSpec where
  experimentId := "e"
  sessionId := "s"
  phase := .followup
  kind := .regTrace
  unit := ⟨"u", ["prog"], "", "", "", "", "r", some sampleKernel, none, [], []⟩
  roundIndex := 1
  discovery := none
  sanitizerTool := none
  stress := none
  trace := some sampleOptions
  reduction := none

def kernelJson (name checksum : String) (points : Fields) : Json :=
  .obj [("kernel_name", .str name), ("kernel_checksum", .str checksum),
    ("instrumentation_points", .obj points)]

variable (point : Fields)

/-- The points of a kernel, one with the given fields and one that is off. -/
def samplePoints : Fields :=
  [("16", .obj point), ("48", .obj [("pc", .int 48), ("on", .bool false)])]

/-- The kernels of a config, of which another one has a point that is on. -/
def sampleKernels : Fields :=
  [("add_c1", kernelJson "add" "c1" [("64", .obj [("pc", .int 64), ("on", .bool true)])]),
    ("gemm_c0", kernelJson "gemm" "c0" (samplePoints point))]

def sampleConfig : Fields :=
  [("kernels", .obj (sampleKernels point))]

def sampleFiles : Files where
  localPath _ := .ok "/config.json"
  load _ := .ok (.obj (sampleConfig point))

def sampleOffsets : Except OffsetError (List String) :=
  configPcOffsets (sampleFiles point) sampleSpec sampleOptions none

def sampleParse (_ : String) : Option Json := some (ordered (.obj (sampleConfig point)))

/-- What the replay of the config says about a PC. -/
def sampleLookup (pc : UInt64) : Option (Bool × UInt32 × UInt32) :=
  (Delay.loadDelayConfig (sampleParse point) (some "")).toOption.bind fun replay =>
    (Delay.getReplayInstrumentationPoints replay "gemm" "c0").toOption.bind fun points =>
      Delay.lookupReplayConfig points pc

theorem sample_pointAt {point : Fields} {key : PointKey} {found : Json}
    (hdistinct : Distinct (.obj (sampleKernels point)))
    (h : pointAt (sampleKernels point) "c0" key = some found) :
    key.1 = "gemm_c0" ∧ (key.2, found) ∈ samplePoints point := by
  obtain ⟨kernel, points, hkernel, hpoints, hpoint⟩ := (pointAt_iff hdistinct).mp h
  have hother : matchedPoints "c0" (kernelJson "add" "c1" [("64", .obj [("pc", .int 64), ("on", .bool true)])]) =
      none := rfl
  have hmatched : matchedPoints "c0" (kernelJson "gemm" "c0" (samplePoints point)) =
      some (samplePoints point) := by
    simp [matchedPoints, kernelJson, field, Dict.lookup, Json.isStr]
  simp only [sampleKernels, List.mem_cons, List.not_mem_nil, or_false, Prod.mk.injEq] at hkernel
  obtain ⟨-, rfl⟩ | ⟨hname, rfl⟩ := hkernel
  · exact absurd (hother.symm.trans hpoints) (by simp)
  · rw [hmatched, Option.some.injEq] at hpoints
    exact ⟨hname, hpoints ▸ hpoint⟩

/-- Every point is stored under its own PC; one is enabled. -/
theorem config_readers_agree_small :
    ∃ replay points, Delay.loadDelayConfig (sampleParse [("pc", .int 16), ("on", .bool true)]) (some "") =
        .ok replay ∧
      Delay.getReplayInstrumentationPoints replay "gemm" "c0" = .ok points ∧
      ∀ offset, offset ∈ ["0x10"] ↔ ∃ pc delayNs clusterSeed,
        Delay.lookupReplayConfig points pc = some (true, delayNs, clusterSeed) ∧
          offset = hexInt pc.toNat := by
  have hlookup : sampleLookup [("pc", .int 16), ("on", .bool true)] 16 = some (true, 0, 0) := by
    decide +kernel
  obtain ⟨replay, hreplay, hrest⟩ := Option.bind_eq_some_iff.mp hlookup
  obtain ⟨points, hpoints, -⟩ := Option.bind_eq_some_iff.mp hrest
  have hload := toOption_eq_some.mp hreplay
  have hget := toOption_eq_some.mp hpoints
  have hdistinct : Json.everywhere Json.distinctNode
      (.obj (sampleConfig [("pc", .int 16), ("on", .bool true)])) = true := by decide +kernel
  have hdistinctKernels : Json.everywhere Json.distinctNode
      (.obj (sampleKernels [("pc", .int 16), ("on", .bool true)])) = true := by decide +kernel
  have hoffsets : sampleOffsets [("pc", .int 16), ("on", .bool true)] = .ok ["0x10"] := by
    decide +kernel
  obtain ⟨kernels, hkernels, hagree⟩ := @config_readers_agree
    (sampleConfig [("pc", .int 16), ("on", .bool true)]) ["0x10"]
    (sampleParse [("pc", .int 16), ("on", .bool true)]) "" replay
    (sampleFiles [("pc", .int 16), ("on", .bool true)]) sampleSpec sampleOptions none "/config.json"
    sampleKernel rfl rfl hdistinct rfl rfl hload hoffsets
  have hsame : kernels = sampleKernels [("pc", .int 16), ("on", .bool true)] := by
    have h : field (sampleConfig [("pc", .int 16), ("on", .bool true)]) "kernels" =
        some (.obj (sampleKernels [("pc", .int 16), ("on", .bool true)])) := rfl
    rw [h, Option.some.injEq, Json.obj.injEq] at hkernels
    exact hkernels.symm
  subst hsame
  have hat : ∀ key point, pointAt (sampleKernels [("pc", .int 16), ("on", .bool true)]) "c0" key = some point →
      key.1 = "gemm_c0" ∧ (key.2 = "16" ∧ point = .obj [("pc", .int 16), ("on", .bool true)] ∨
        key.2 = "48" ∧ point = .obj [("pc", .int 48), ("on", .bool false)]) := by
    intro key point h
    simpa [samplePoints] using sample_pointAt hdistinctKernels h
  refine ⟨replay, points, hload, hget, (hagree ?_).2 ⟨?_, ?_, ?_⟩ "gemm" points hget⟩
  · intro key point h
    obtain ⟨-, ⟨-, rfl⟩ | ⟨-, rfl⟩⟩ := hat key point h <;> rfl
  · decide +kernel
  · intro key key' point point' h h' hsame
    obtain ⟨hname, hkey⟩ := hat key point h
    obtain ⟨hname', hkey'⟩ := hat key' point' h'
    refine Prod.ext (hname.trans hname'.symm) ?_
    obtain ⟨hkey, -⟩ | ⟨hkey, -⟩ := hkey <;> obtain ⟨hkey', -⟩ | ⟨hkey', -⟩ := hkey' <;>
      rw [hkey, hkey'] at hsame ⊢
    · exact absurd hsame (by decide +kernel)
    · exact absurd hsame (by decide +kernel)
  · intro key point h hselected
    obtain ⟨-, ⟨hkey, rfl⟩ | ⟨hkey, rfl⟩⟩ := hat key point h <;> rw [hkey]
    · exact ⟨16, by decide +kernel, by decide +kernel⟩
    · cases hselected

/-- A point that is stored under another PC than its own, and one that does not say whether
it is on: the trace takes a PC that the replay does not delay. -/
theorem config_readers_differ :
    (sampleOffsets [("pc", .int 32), ("on", .bool true)] = .ok ["0x20"] ∧
      sampleLookup [("pc", .int 32), ("on", .bool true)] 32 = none ∧
      sampleLookup [("pc", .int 32), ("on", .bool true)] 16 = some (true, 0, 0)) ∧
    sampleOffsets [("pc", .int 16)] = .ok ["0x10"] ∧
      sampleLookup [("pc", .int 16)] 16 = some (false, 0, 0) := by
  decide +kernel

end CuTracer.Trace
