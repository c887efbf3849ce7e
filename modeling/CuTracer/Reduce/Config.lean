import CuTracer.Library.Dict
import Mathlib.Data.Finset.Image

/-! Delay configs and their mutator. A config maps kernel keys to kernels and
each kernel maps PC offsets to delay points; JSON objects have no repeated keys,
so a point is identified by its kernel key and PC offset. The mutator keeps the
config beside the list of points parsed from it, and every update writes both. -/

namespace CuTracer.Reduce

/-- `(kernel_key, pc_offset)`. -/
abbrev PointKey := String × String

/-- One entry of `instrumentation_points`; absent fields are `none`. -/
structure InstrumentationPoint where
  sass : Option String
  delay : Option ℤ
  on : Option Bool
  deriving DecidableEq

structure KernelDelayConfig where
  kernelName : Option String
  instrumentationPoints : Dict String InstrumentationPoint

structure DelayConfig where
  kernels : Dict String KernelDelayConfig

/-- A delay injection point as the reducers see it. -/
structure DelayPoint where
  kernelKey : String
  kernelName : String
  pcOffset : String
  sass : String
  delayNs : ℤ
  enabled : Bool
  deriving DecidableEq

namespace DelayPoint

def key (p : DelayPoint) : PointKey := (p.kernelKey, p.pcOffset)

end DelayPoint

def keySet (points : List DelayPoint) : Finset PointKey := (points.map DelayPoint.key).toFinset

@[simp] theorem mem_keySet {points : List DelayPoint} {k : PointKey} :
    k ∈ keySet points ↔ ∃ p ∈ points, p.key = k := by
  simp [keySet]

/-- One point of a kernel, with the defaults of missing fields. -/
def parsePoint (kernelKey kernelName : String) (e : String × InstrumentationPoint) : DelayPoint where
  kernelKey := kernelKey
  kernelName := kernelName
  pcOffset := e.1
  sass := e.2.sass.getD ""
  delayNs := e.2.delay.getD 0
  enabled := e.2.on.getD false

def parseKernel (e : String × KernelDelayConfig) : List DelayPoint :=
  e.2.instrumentationPoints.entries.map (parsePoint e.1 (e.2.kernelName.getD e.1))

/-- `_parse_delay_points`: the points in config order. -/
def parseDelayPoints (config : DelayConfig) : List DelayPoint :=
  config.kernels.entries.flatMap parseKernel

/-- `config["kernels"][kernel_key]["instrumentation_points"][pc_offset]["on"] = enabled`
for every key the predicate selects. -/
def DelayConfig.setOn (config : DelayConfig) (sel : PointKey → Bool) (enabled : Bool) : DelayConfig where
  kernels := config.kernels.mapValues fun kernelKey kernel =>
    { kernel with
      instrumentationPoints := kernel.instrumentationPoints.mapValues fun pc point =>
        if sel (kernelKey, pc) then { point with on := some enabled } else point }

/-- The same update on parsed points. -/
def setEnabled (sel : PointKey → Bool) (enabled : Bool) (p : DelayPoint) : DelayPoint :=
  if sel p.key then { p with enabled := enabled } else p

@[simp] theorem setEnabled_false (enabled : Bool) : setEnabled (fun _ => false) enabled = id := by
  funext p; simp [setEnabled]

theorem setEnabled_setEnabled (sel sel' : PointKey → Bool) (enabled : Bool) (p : DelayPoint) :
    setEnabled sel enabled (setEnabled sel' enabled p) =
      setEnabled (fun k => sel' k || sel k) enabled p := by
  cases h : sel p.key <;> cases h' : sel' p.key <;>
    simp_all [setEnabled, DelayPoint.key]

theorem parseDelayPoints_setOn (config : DelayConfig) (sel : PointKey → Bool) (enabled : Bool) :
    parseDelayPoints (config.setOn sel enabled) =
      (parseDelayPoints config).map (setEnabled sel enabled) := by
  simp only [parseDelayPoints, DelayConfig.setOn, Dict.mapValues, List.flatMap_map, List.map_flatMap]
  congr 1
  funext e
  simp only [parseKernel, List.map_map]
  apply List.map_congr_left
  intro q _
  by_cases h : sel (e.1, q.1) = true <;>
    simp [Function.comp, parsePoint, setEnabled, DelayPoint.key, h]

theorem parseKernel_keys (e : String × KernelDelayConfig) :
    (parseKernel e).map DelayPoint.key = e.2.instrumentationPoints.keys.map fun pc => (e.1, pc) := by
  simp [parseKernel, Dict.keys, parsePoint, DelayPoint.key, Function.comp_def]

theorem parseDelayPoints_keys_nodup (config : DelayConfig) :
    ((parseDelayPoints config).map DelayPoint.key).Nodup := by
  rw [parseDelayPoints, List.map_flatMap, List.nodup_flatMap]
  constructor
  · intro e _
    rw [parseKernel_keys]
    exact e.2.instrumentationPoints.keys_nodup.map fun a b h => (Prod.ext_iff.mp h).2
  · have h := config.kernels.nodup
    rw [List.nodup_iff_pairwise_ne, List.pairwise_map] at h
    refine h.imp fun {a b} hne => ?_
    simp only [parseKernel_keys]
    intro k ha hb
    simp only [List.mem_map] at ha hb
    obtain ⟨x, -, rfl⟩ := ha
    obtain ⟨y, -, hy⟩ := hb
    exact hne (Prod.ext_iff.mp hy).1.symm

/-! ### The mutator -/

/-- `DelayConfigMutator`: a config and the points parsed from it. -/
structure DelayConfigMutator where
  config : DelayConfig
  delayPoints : List DelayPoint
  parsed : delayPoints = parseDelayPoints config

namespace DelayConfigMutator

/-- `DelayConfigMutator(config_path)`, and equally `clone`. -/
def load (config : DelayConfig) : DelayConfigMutator := ⟨config, parseDelayPoints config, rfl⟩

variable (m : DelayConfigMutator)

def clone : DelayConfigMutator := load m.config

@[simp] theorem clone_eq : m.clone = m := by
  obtain ⟨config, points, rfl⟩ := m; rfl

def enabledPoints : List DelayPoint := m.delayPoints.filter (·.enabled)

def setSelected (sel : PointKey → Bool) (enabled : Bool) :
    DelayConfigMutator where
  config := m.config.setOn sel enabled
  delayPoints := m.delayPoints.map (setEnabled sel enabled)
  parsed := by rw [parseDelayPoints_setOn, m.parsed]

def setPointEnabled (point : DelayPoint) (enabled : Bool) : DelayConfigMutator :=
  m.setSelected (fun k => k = point.key) enabled

def setAllEnabled (enabled : Bool) : DelayConfigMutator :=
  m.delayPoints.foldl (fun m p => m.setPointEnabled p enabled) m

/-- `save`: the document written to the file. -/
def save : DelayConfig := m.config

theorem keys_nodup : (m.delayPoints.map DelayPoint.key).Nodup := by
  rw [m.parsed]; exact parseDelayPoints_keys_nodup m.config

@[simp] theorem delayPoints_setSelected (m : DelayConfigMutator) (sel : PointKey → Bool)
    (enabled : Bool) :
    (m.setSelected sel enabled).delayPoints = m.delayPoints.map (setEnabled sel enabled) := rfl

theorem delayPoints_foldl_setPointEnabled (ps : List DelayPoint) (m : DelayConfigMutator)
    (enabled : Bool) :
    (ps.foldl (fun m p => m.setPointEnabled p enabled) m).delayPoints =
      m.delayPoints.map (setEnabled (fun k => decide (k ∈ ps.map DelayPoint.key)) enabled) := by
  induction ps generalizing m with
  | nil => simp
  | cons p ps ih =>
    rw [List.foldl_cons, ih, setPointEnabled, delayPoints_setSelected, List.map_map]
    apply List.map_congr_left
    intro q _
    rw [Function.comp, setEnabled_setEnabled]
    simp [setEnabled]

theorem delayPoints_setAllEnabled (m : DelayConfigMutator) (enabled : Bool) :
    (m.setAllEnabled enabled).delayPoints = m.delayPoints.map fun p => { p with enabled := enabled } := by
  rw [setAllEnabled, delayPoints_foldl_setPointEnabled]
  apply List.map_congr_left
  intro p hp
  exact if_pos (decide_eq_true (List.mem_map_of_mem hp))

end DelayConfigMutator

theorem enabledPoints_keys_nodup (m : DelayConfigMutator) :
    (m.enabledPoints.map DelayPoint.key).Nodup :=
  m.keys_nodup.sublist (List.filter_sublist.map _)

def DelayConfig.enabledKeys (config : DelayConfig) : Finset PointKey :=
  keySet ((parseDelayPoints config).filter (·.enabled))

theorem DelayConfigMutator.enabledKeys_save (m : DelayConfigMutator) :
    m.save.enabledKeys = keySet m.enabledPoints := by
  rw [DelayConfig.enabledKeys, save, enabledPoints, m.parsed]

end CuTracer.Reduce
