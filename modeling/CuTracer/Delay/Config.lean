import CuTracer.Delay.File
import CuTracer.Library.Hex
import CuTracer.Library.JsonObject
import CuTracer.Library.JsonText
import CuTracer.Library.Strtol

/-! The delay config: the instrumentation points of the kernels of a process, their dump
and the replay of a dump. A kernel is stored under its name and checksum and found again by
its checksum alone. -/

namespace CuTracer.Delay

open Json (field setField assemble)

/-! ### The config -/

structure DelayInstrumentationPoint where
  pcOffset : UInt64
  sass : String
  delayNs : UInt32
  enabled : Bool
  clusterSeed : UInt32

structure KernelDelayInjectConfig where
  kernelName : String
  kernelChecksum : String
  timestamp : String
  instrumentationPoints : Dict UInt64 DelayInstrumentationPoint

structure DelayInjectConfig where
  version : String
  delayNs : UInt32
  kernels : Dict String KernelDelayInjectConfig

def kernelKey (kernelName kernelChecksum : String) : String := kernelName ++ "_" ++ kernelChecksum

def createKernelDelayConfig (kernelName kernelChecksum timestamp : String)
    (config : DelayInjectConfig) : DelayInjectConfig :=
  { config with
    kernels := config.kernels.insert (kernelKey kernelName kernelChecksum)
      ⟨kernelName, kernelChecksum, timestamp, Dict.empty⟩ }

variable (point : DelayInstrumentationPoint)

/-- The first registration of an offset stays. -/
def registerDelayInstrumentationPoint (kdc : KernelDelayInjectConfig) : KernelDelayInjectConfig :=
  if point.pcOffset ∈ kdc.instrumentationPoints.keys then kdc
  else { kdc with
    instrumentationPoints := kdc.instrumentationPoints.insert point.pcOffset point }

/-! ### The dump -/

def clusterSeedField : Fields :=
  if point.clusterSeed ≠ 0 then [("cluster_seed", .int point.clusterSeed.toNat)] else []

def pointJson : Json :=
  .obj (assemble ([("pc", .int point.pcOffset.toNat), ("sass", .str point.sass),
    ("delay", .int point.delayNs.toNat), ("on", .bool point.enabled)] ++ clusterSeedField point))

/-- The points in the order of their offsets, under the decimal text of the offset. -/
def pointFields (points : Dict UInt64 DelayInstrumentationPoint) : Fields :=
  (sortOn (fun e => e.1.toNat) points.entries).map fun e => (e.1.toNat.repr, pointJson e.2)

def kernelJson (kdc : KernelDelayInjectConfig) : Json :=
  .obj (assemble [("kernel_name", .str kdc.kernelName),
    ("kernel_checksum", .str kdc.kernelChecksum), ("timestamp", .str kdc.timestamp),
    ("instrumentation_points", .obj (assemble (pointFields kdc.instrumentationPoints)))])

def kernelFields (kernels : Dict String KernelDelayInjectConfig) : Fields :=
  (sortOn Prod.fst kernels.entries).map fun e => (e.1, kernelJson e.2)

def delayConfigJson (seed : UInt64) (config : DelayInjectConfig) : Fields :=
  assemble [("version", .str config.version), ("delay_ns", .int config.delayNs.toNat),
    ("seed", .int seed.toNat), ("kernels", .obj (assemble (kernelFields config.kernels)))]

/-! ### Loading -/

/-- A JSON exception is reported; the errors of `std::stoull` leave the function. -/
inductive LoadError where
  | open
  | parse
  | type
  | invalidArgument
  | outOfRange
  deriving DecidableEq

/-- The integer part of a floating-point number. -/
def truncate (bits : BitVec 64) : ℤ :=
  let exponent := (bits.toNat / 2 ^ 52) % 2 ^ 11
  let fraction := bits.toNat % 2 ^ 52
  let significand := if exponent = 0 then fraction else fraction + 2 ^ 52
  let magnitude : ℕ := significand * 2 ^ exponent / 2 ^ 1075
  if bits.msb then -(magnitude : ℤ) else magnitude

/-- `value(key, fallback)` at the type of a string. -/
def valueText (j : Json) (key fallback : String) : Except LoadError String :=
  match j with
  | .obj fields =>
    match field fields key with
    | none => .ok fallback
    | some (.str s) => .ok s
    | some _ => .error .type
  | _ => .error .type

/-- `value(key, 0u)`: any number or boolean, converted to 32 bits. -/
def valueUInt32 (j : Json) (key : String) : Except LoadError UInt32 :=
  match j with
  | .obj fields =>
    match field fields key with
    | none => .ok 0
    | some (.int i) => .ok (UInt32.ofInt i)
    | some (.bool b) => .ok (if b then 1 else 0)
    | some (.float bits) => .ok (UInt32.ofInt (truncate bits))
    | some _ => .error .type
  | _ => .error .type

/-- `value(key, false)`. -/
def valueBool (j : Json) (key : String) : Except LoadError Bool :=
  match j with
  | .obj fields =>
    match field fields key with
    | none => .ok false
    | some (.bool b) => .ok b
    | some _ => .error .type
  | _ => .error .type

/-- `std::stoull`. -/
def stoull (text : String) : Except LoadError UInt64 :=
  match Strtol.number 10 text.toList with
  | none => .error .invalidArgument
  | some (negative, value, _) =>
    if 2 ^ 64 ≤ value then .error .outOfRange
    else .ok (if negative then -UInt64.ofNat value else UInt64.ofNat value)

def loadPoint (pcText : String) (j : Json) : Except LoadError DelayInstrumentationPoint := do
  let pcOffset ← stoull pcText
  let sass ← valueText j "sass" ""
  let delayNs ← valueUInt32 j "delay"
  let enabled ← valueBool j "on"
  let clusterSeed ← valueUInt32 j "cluster_seed"
  return ⟨pcOffset, sass, delayNs, enabled, clusterSeed⟩

/-- A field of an object, if the value is one and has it. -/
def member (j : Json) (key : String) : Option Json :=
  match j with
  | .obj fields => field fields key
  | _ => none

def loadPoints (points : Fields) : Except LoadError (Dict UInt64 DelayInstrumentationPoint) :=
  points.foldlM (fun d f => do
    let point ← loadPoint f.1 f.2
    return d.insert point.pcOffset point) Dict.empty

def loadKernel (j : Json) : Except LoadError KernelDelayInjectConfig := do
  let kernelName ← valueText j "kernel_name" ""
  let kernelChecksum ← valueText j "kernel_checksum" ""
  let timestamp ← valueText j "timestamp" ""
  let points ← loadPoints (((member j "instrumentation_points").map items).getD [])
  return ⟨kernelName, kernelChecksum, timestamp, points⟩

def loadKernels (kernels : Fields) : Except LoadError (Dict String KernelDelayInjectConfig) :=
  kernels.foldlM (fun d f => do
    let kernel ← loadKernel f.2
    return d.insert f.1 kernel) Dict.empty

/-- What `load_delay_config` makes of the text of a file, if it can open the file. -/
def loadDelayConfig (parse : String → Option Json) (file : Option String) :
    Except LoadError DelayInjectConfig :=
  match file with
  | none => .error .open
  | some text =>
    match parse text with
    | none => .error .parse
    | some j => do
      let version ← valueText j "version" "1.0"
      let delayNs ← valueUInt32 j "delay_ns"
      let kernels ← loadKernels (((member j "kernels").map items).getD [])
      return ⟨version, delayNs, kernels⟩

/-! ### Replay -/

/-- The points of the first kernel with the checksum; its name is asserted. -/
def getReplayInstrumentationPoints (replay : DelayInjectConfig)
    (kernelName kernelChecksum : String) :
    Except Unit (Option (Dict UInt64 DelayInstrumentationPoint)) :=
  match (sortOn Prod.fst replay.kernels.entries).find? fun e =>
      e.2.kernelChecksum = kernelChecksum with
  | none => .ok none
  | some e =>
    if e.2.kernelName = kernelName then .ok (some e.2.instrumentationPoints) else .error ()

def lookupReplayConfig (points : Option (Dict UInt64 DelayInstrumentationPoint)) (pcOffset : UInt64) :
    Option (Bool × UInt32 × UInt32) :=
  (points.bind fun points => points.get? pcOffset).map fun p => (p.enabled, p.delayNs, p.clusterSeed)

/-! ### A point -/

theorem uint32_ofInt_toNat (n : UInt32) : UInt32.ofInt n.toNat = n := by
  have h : ((n.toNat : ℤ) % 2 ^ 32).toNat = n.toNat := by
    have := n.toNat_lt
    omega
  rw [UInt32.ofInt, h, UInt32.ofNat_toNat]

/-- The decimal text of an offset is read back. -/
theorem stoull_repr (pc : UInt64) : stoull pc.toNat.repr = .ok pc := by
  obtain ⟨c, cs, hcs, hc⟩ := Strtol.toDigits_cons (by decide : 1 < 10) (by decide) pc.toNat
  have hvalue := Strtol.magnitude_toDigits (by decide : 1 < 10) (by decide) pc.toNat
  have hlt := pc.toNat_lt
  rw [hcs] at hvalue
  rw [stoull, Nat.toList_repr, hcs, Strtol.number_of_digit hc, hvalue]
  simp only [Option.map_some, Bool.false_eq_true, if_false]
  rw [if_neg (by omega), UInt64.ofNat_toNat]

theorem loadPoint_pointJson (p : DelayInstrumentationPoint) :
    loadPoint p.pcOffset.toNat.repr (pointJson p) = .ok p := by
  have hsass : valueText (pointJson p) "sass" "" = .ok p.sass := by
    by_cases h : p.clusterSeed = 0 <;>
      simp [valueText, pointJson, assemble, clusterSeedField, h, Json.field_setField]
  have hdelay : valueUInt32 (pointJson p) "delay" = .ok p.delayNs := by
    by_cases h : p.clusterSeed = 0 <;>
      simp [valueUInt32, pointJson, assemble, clusterSeedField, h, Json.field_setField,
        uint32_ofInt_toNat]
  have hon : valueBool (pointJson p) "on" = .ok p.enabled := by
    by_cases h : p.clusterSeed = 0 <;>
      simp [valueBool, pointJson, assemble, clusterSeedField, h, Json.field_setField]
  -- a cluster seed of zero is left out and read back as the fallback
  have hseed : valueUInt32 (pointJson p) "cluster_seed" = .ok p.clusterSeed := by
    by_cases h : p.clusterSeed = 0
    · have hnil : field [] "cluster_seed" = none := rfl
      simp [valueUInt32, pointJson, assemble, clusterSeedField, h, Json.field_setField, hnil]
    · simp [valueUInt32, pointJson, assemble, clusterSeedField, h, Json.field_setField,
        uint32_ofInt_toNat]
  unfold loadPoint
  rw [stoull_repr, hsass, hdelay, hon, hseed]
  rfl

end CuTracer.Delay
