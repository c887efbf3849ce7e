import CuTracer.Plan.FixedPoint

/-! The tables of a plan that its runtime builds once: the configurations of all kernels
with an index each, the points of all configurations with an index each, and for each
point the words that a visit of it copies and the masks that say which configuration
asked for what. -/

namespace CuTracer.PlanRuntime

open Plan

/-! ### Limits -/

def kPlanConfigsMax : ℕ := 256
def kPlanMaskWords : ℕ := kPlanConfigsMax / 64
def kPlanLaunchSlots : ℕ := 1024
def kPlanPointsMax : ℕ := 8192

def planCaptureWords : ℕ := 16

/-- The size of a `plan_observation_t`. -/
def packetBytes : ℕ := 2120

/-! ### Masks of configurations -/

/-- One bit for each configuration, in words of 64 bits. -/
abbrev Mask := ℕ → BitVec 64

def Mask.clear : Mask := fun _ => 0

def enable (mask : Mask) (index : ℕ) : Mask :=
  Function.update mask (index / 64) (mask (index / 64) ||| 1#64 <<< (index % 64))

def enabled (mask : Mask) (index : ℕ) : Bool :=
  (mask (index / 64) >>> (index % 64)) &&& 1#64 ≠ 0#64

theorem enabled_eq (mask : Mask) (index : ℕ) :
    enabled mask index = (mask (index / 64)).getLsbD (index % 64) := by
  rw [Bool.eq_iff_iff, enabled, decide_eq_true_iff, Ne, BitVec.and_one_eq_setWidth_ofBool_getLsbD]
  cases h : (mask (index / 64) >>> (index % 64)).getLsbD 0 <;>
    rw [BitVec.getLsbD_ushiftRight, Nat.add_zero] at h <;> simp [h]

@[simp] theorem enabled_clear (index : ℕ) : enabled Mask.clear index = false := by
  simp [enabled_eq, Mask.clear]

theorem enabled_enable (mask : Mask) (i j : ℕ) :
    enabled (enable mask i) j = (decide (j = i) || enabled mask j) := by
  rw [enabled_eq, enabled_eq, enable]
  by_cases hword : j / 64 = i / 64
  · rw [hword, Function.update_self, BitVec.getLsbD_or, Bool.or_comm]
    congr 1
    have hlt : j % 64 < 64 := Nat.mod_lt _ (by omega)
    have hlt' : i % 64 < 64 := Nat.mod_lt _ (by omega)
    rw [BitVec.getLsbD_shiftLeft, BitVec.getLsbD_one, Bool.eq_iff_iff]
    simp only [Bool.and_eq_true, Bool.not_eq_true', decide_eq_true_iff, decide_eq_false_iff_not]
    omega
  · rw [Function.update_of_ne hword]
    have hne : j ≠ i := fun h => hword (h ▸ rfl)
    simp [hne]

/-! ### Points -/

/-- The binary, the function, the byte offset in it and the phase. -/
abbrev PointKey := String × String × ℕ × Phase

structure PlanDevicePoint where
  configurations : Mask := Mask.clear
  reachedPolicy : Mask := Mask.clear
  entryMarker : Mask := Mask.clear
  wordMasks : ℕ → BitVec 32 := fun _ => 0#32
  wordCount : ℕ := 0

/-- A point with the requests of the configurations, by index, and the configurations
whose kernel it enters. -/
structure RuntimePoint where
  key : PointKey
  expected : String := ""
  requests : Dict ℕ Point := Dict.empty
  entries : List ℕ := []
  words : List Register := []
  device : PlanDevicePoint := {}

structure RuntimeConfig where
  kernel : ℕ
  source : Config

structure Tables where
  configs : List RuntimeConfig := []
  points : List RuntimePoint := []
  pointIds : Dict PointKey ℕ := Dict.empty

/-- The index of the point with a key, which is new unless there is one. -/
def addPoint (key : PointKey) (t : Tables) : Except PlanError (Tables × ℕ) :=
  match t.pointIds.get? key with
  | some id => .ok (t, id)
  | none =>
    if kPlanPointsMax ≤ t.points.length then
      .error ⟨"Plan backend point budget exceeded (8192)"⟩
    else
      .ok ({ t with
        pointIds := t.pointIds.insert key t.points.length
        points := t.points ++ [{ key }] }, t.points.length)

def Tables.modifyPoint (t : Tables) (id : ℕ) (f : RuntimePoint → RuntimePoint) : Tables :=
  { t with points := t.points.modify id f }

/-- `requests.emplace`, after the expected bytes. -/
def RuntimePoint.request (config : ℕ) (requested : Point) (p : RuntimePoint) : RuntimePoint :=
  { p with
    expected := requested.expectedBytes
    requests := p.requests.upsert config fun old => old.getD requested }

def RuntimePoint.enter (config : ℕ) (p : RuntimePoint) : RuntimePoint :=
  { p with entries := if config ∈ p.entries then p.entries else p.entries ++ [config] }

def pointKey (k : Kernel) (requested : Point) : PointKey :=
  (k.cubinSha256, requested.function, requested.pc, requested.phase)

def entryKey (k : Kernel) : PointKey := (k.cubinSha256, k.entry, 0, .before)

def addRequest (k : Kernel) (config : ℕ) (t : Tables) (requested : Point) :
    Except PlanError Tables := do
  let (t, id) ← addPoint (pointKey k requested) t
  return t.modifyPoint id (·.request config requested)

def addConfig (kernel : ℕ) (k : Kernel) (t : Tables) (config : Config) :
    Except PlanError Tables := do
  if kPlanConfigsMax ≤ t.configs.length then
    .error ⟨"Plan backend configuration budget exceeded (256)"⟩
  else do
    let id := t.configs.length
    let t ← config.points.foldlM (addRequest k id)
      { t with configs := t.configs ++ [⟨kernel, config⟩] }
    let (t, entry) ← addPoint (entryKey k) t
    return t.modifyPoint entry (·.enter id)

def addKernel (t : Tables) (kernel : Kernel × ℕ) : Except PlanError Tables :=
  kernel.1.configs.foldlM (addConfig kernel.2 kernel.1) t

/-! ### Words -/

def registersOf (request : Point) : List Register :=
  request.observations.flatMap (·.registers)

/-- The registers of all requests, each once, in the order of their names. -/
def RuntimePoint.unionWords (p : RuntimePoint) : List Register :=
  sortOn Register.name ((p.requests.values.flatMap registersOf).foldl
    (emplace Register.name) [])

/-- The bit of a register in the word mask of a configuration; words from 16 on have none. -/
def markWord (words : List Register) (index : ℕ) (masks : ℕ → BitVec 32) (reg : Register) :
    ℕ → BitVec 32 :=
  let offset := words.findIdx fun word => word.name = reg.name
  if offset < planCaptureWords then
    Function.update masks index (masks index ||| 1#32 <<< offset)
  else masks

def PlanDevicePoint.markRequest (words : List Register) (d : PlanDevicePoint)
    (request : ℕ × Point) : PlanDevicePoint :=
  { d with
    configurations := enable d.configurations request.1
    reachedPolicy :=
      if request.2.predicate = .reached then enable d.reachedPolicy request.1
      else d.reachedPolicy
    wordMasks := (registersOf request.2).foldl (markWord words request.1) d.wordMasks }

def PlanDevicePoint.markEntry (d : PlanDevicePoint) (index : ℕ) : PlanDevicePoint :=
  { d with
    configurations := enable d.configurations index
    entryMarker := enable d.entryMarker index }

def RuntimePoint.finish (p : RuntimePoint) : RuntimePoint :=
  let words := p.unionWords
  let device : PlanDevicePoint := { wordCount := words.length }
  { p with
    words
    device := p.entries.foldl PlanDevicePoint.markEntry
      (p.requests.entries.foldl (PlanDevicePoint.markRequest words) device) }

def build (plan : CanonicalPlan) : Except PlanError Tables := do
  let t ← plan.kernels.zipIdx.foldlM addKernel {}
  return { t with points := t.points.map RuntimePoint.finish }

/-! ### How many configurations -/

variable {t t' : Tables}

theorem length_addConfig {kernel : ℕ} {k : Kernel} {config : Config}
    (h : addConfig kernel k t config = .ok t') : t'.configs.length ≤ kPlanConfigsMax := by
  have hpoint : ∀ {key : PointKey} {id : ℕ} {u w : Tables}, addPoint key u = .ok (w, id) →
      w.configs = u.configs := by
    intro key id u w h
    unfold addPoint at h
    split at h
    · rw [(Prod.mk.inj (Except.ok.inj h)).1]
    · split_ifs at h
      rw [← (Prod.mk.inj (Except.ok.inj h)).1]
  have hrequests : ∀ {c : ℕ} (requests : List Point) {u w : Tables},
      requests.foldlM (addRequest k c) u = .ok w → w.configs = u.configs := by
    intro c requests
    induction requests with
    | nil =>
      intro u w h
      rw [← Except.ok.inj h]
    | cons q requests ih =>
      intro u w h
      rw [List.foldlM_cons] at h
      obtain ⟨x, hx, h⟩ := bind_ok h
      obtain ⟨⟨y, id⟩, hy, hx⟩ := bind_ok hx
      have hy' := hpoint hy
      rw [ih h, ← Except.ok.inj hx]
      exact hy'
  unfold addConfig at h
  split_ifs at h with hroom
  obtain ⟨u, hu, h⟩ := bind_ok h
  obtain ⟨⟨w, id⟩, hw, h⟩ := bind_ok h
  rw [← Except.ok.inj h, Tables.modifyPoint]
  dsimp only
  rw [hpoint hw, hrequests config.points hu, List.length_append, List.length_singleton]
  omega

theorem length_build {plan : CanonicalPlan} (h : build plan = .ok t) :
    t.configs.length ≤ kPlanConfigsMax := by
  have hkernel : ∀ (kernel : ℕ) (k : Kernel) (cs : List Config) (u w : Tables),
      u.configs.length ≤ kPlanConfigsMax → cs.foldlM (addConfig kernel k) u = .ok w →
      w.configs.length ≤ kPlanConfigsMax := by
    intro kernel k cs
    induction cs with
    | nil =>
      intro u w hu h
      exact Except.ok.inj h ▸ hu
    | cons c cs ih =>
      intro u w hu h
      rw [List.foldlM_cons] at h
      obtain ⟨x, hx, h⟩ := bind_ok h
      exact ih x w (length_addConfig hx) h
  have hkernels : ∀ (ks : List (Kernel × ℕ)) (u w : Tables),
      u.configs.length ≤ kPlanConfigsMax → ks.foldlM addKernel u = .ok w →
      w.configs.length ≤ kPlanConfigsMax := by
    intro ks
    induction ks with
    | nil =>
      intro u w hu h
      exact Except.ok.inj h ▸ hu
    | cons k ks ih =>
      intro u w hu h
      rw [List.foldlM_cons] at h
      obtain ⟨x, hx, h⟩ := bind_ok h
      exact ih x w (hkernel k.2 k.1 k.1.configs u x hu hx) h
  obtain ⟨u, hu, h⟩ := bind_ok h
  rw [← Except.ok.inj h]
  exact hkernels _ {} u (Nat.zero_le _) hu

end CuTracer.PlanRuntime
