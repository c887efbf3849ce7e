import CuTracer.Delay.Config
import CuTracer.Stress.Targeting

/-! How long the threads of a kernel sleep. The settings bound the delays of a process, a point has the
delay of the settings or of a replayed config, and the device draws what is random and sleeps it in
pieces. A replayed delay was never compared with the smallest delay of the settings. -/

namespace CuTracer.Delay

open Device (Env Launch Thread)
open Stress (DelayTargeting Injection)

/-! ### Settings -/

/-- What `parse_delay_config` leaves in the globals. -/
structure DelaySettings where
  delayNs : UInt32
  delayMinNs : UInt32
  delaySeed : UInt64
  targeting : DelayTargeting
  dumpPath : String
  loadPath : String
  deriving DecidableEq

/-- `parse_delay_seed`; `none` where it exits. An empty text gives a random seed. -/
def parseDelaySeed (randomSeed : UInt64) (text : String) : Option UInt64 :=
  if text = "" then some randomSeed
  else
    match Strtol.number 0 text.toList with
    | some (_, magnitude, rest) =>
      if 2 ^ 64 ≤ magnitude ∨ rest ≠ [] ∨ '-' ∈ text.toList then none else some (UInt64.ofNat magnitude)
    | none => none

def uint32Max : UInt64 := 4294967295

/-- `parse_delay_config`; `none` where it exits. `probInRange` tells whether a text reads as a
probability that is not out of range, `randomDelay` whether the analysis is enabled. -/
def parseDelayConfig (probInRange : String → Bool) (randomSeed : UInt64) (randomDelay : Bool) (env : Env) :
    Option DelaySettings := do
  let delayVal := env.getVarUInt64 "CUTRACER_DELAY_NS" 0
  guard (¬(delayVal = 0 ∧ randomDelay))
  guard (delayVal ≤ uint32Max)
  let delayMinVal := env.getVarUInt64 "CUTRACER_DELAY_MIN_NS" 0
  guard (delayMinVal ≤ uint32Max)
  guard (delayMinVal ≤ delayVal)
  guard ((env "CUTRACER_DELAY_ENABLE_PROB").all probInRange)
  let delaySeed ← parseDelaySeed randomSeed (env.getVarStr "CUTRACER_DELAY_SEED" "")
  let targeting ← Stress.parseDelayConfig env
  let dumpPath := env.getVarStr "CUTRACER_DELAY_DUMP_PATH" ""
  let loadPath := env.getVarStr "CUTRACER_DELAY_LOAD_PATH" ""
  guard (¬(dumpPath ≠ "" ∧ loadPath ≠ ""))
  some ⟨delayVal.toUInt32, delayMinVal.toUInt32, delaySeed, targeting, dumpPath, loadPath⟩

/-- `init_delay_json_config`: the config to replay, if there is one. -/
def replayConfig (parse : String → Option Json) (file : String → Option String) (s : DelaySettings) :
    Except LoadError (Option DelayInjectConfig) :=
  if s.loadPath = "" then .ok none else (loadDelayConfig parse (file s.loadPath)).map some

/-! ### Points -/

def delayMix64 (x : UInt64) : UInt64 :=
  let x := x + 0x9e3779b97f4a7c15
  let x := (x ^^^ (x >>> 30)) * 0xbf58476d1ce4e5b9
  let x := (x ^^^ (x >>> 27)) * 0x94d049bb133111eb
  x ^^^ (x >>> 31)

def delayPointHash (seed : UInt64) (kernelChecksum : String) (pcOffset stream : UInt64) : UInt64 :=
  let checksumHash := kernelChecksum.toUTF8.data.toList.foldl
    (fun h c => (h ^^^ c.toUInt64) * 0x100000001b3) 0xcbf29ce484222325
  delayMix64 (delayMix64 (delayMix64 (seed ^^^ stream) ^^^ checksumHash) ^^^ pcOffset)

def delayPointClusterSeed (seed : UInt64) (kernelChecksum : String) (pcOffset : UInt64) : UInt32 :=
  (delayPointHash seed kernelChecksum pcOffset 2).toUInt32

/-- The delay and the cluster seed of a point that gets a call. `enabled` is the choice of
`delay_point_enabled`, which a replay does not make. -/
def pointCall (s : DelaySettings) (replay : Option DelayInjectConfig) (kernelName kernelChecksum : String)
    (pcOffset : UInt64) (enabled : Bool) : Option (UInt32 × UInt32) :=
  match replay with
  | some config =>
    match getReplayInstrumentationPoints config kernelName kernelChecksum with
    | .error _ => none
    | .ok points =>
      match lookupReplayConfig points pcOffset with
      | some (true, delayNs, clusterSeed) => some (delayNs, clusterSeed)
      | _ => none
  | none =>
    if enabled then
      some (s.delayNs,
        if s.targeting.onePerCluster then delayPointClusterSeed s.delaySeed kernelChecksum pcOffset else 0)
    else none

/-! ### The device -/

variable {launch : Launch}

/-- The longest `__nanosleep`. -/
def chunkNs : UInt32 := 1000000

/-- `sleep_for_ns`: the sleeps that it requests. -/
def sleepForNs (remaining : UInt32) : List UInt32 :=
  if chunkNs < remaining then chunkNs :: sleepForNs (remaining - chunkNs)
  else if 0 < remaining then [remaining]
  else []
termination_by remaining.toNat
decreasing_by
  have hlt : chunkNs.toNat < remaining.toNat := by assumption
  have hpos : 0 < chunkNs.toNat := by decide
  rw [UInt32.toNat_sub_of_le _ _ (by rw [UInt32.le_iff_toNat_le]; omega)]
  omega

/-- The hash over the identity of a thread and the clock. -/
def threadSeed (clock : UInt32) (t : Thread launch) : UInt32 :=
  clock ^^^ (UInt32.ofNat t.index.x * 2654435761) ^^^ (UInt32.ofNat t.index.y * 2246822519) ^^^
    (UInt32.ofNat t.index.z * 3266489917) ^^^ (UInt32.ofNat t.cta.x * 668265263) ^^^
    (UInt32.ofNat t.cta.y * 374761393) ^^^ (UInt32.ofNat t.cta.z * 1103515245)

def xorshift32 (seed : UInt32) : UInt32 :=
  let seed := seed ^^^ (seed <<< 13)
  let seed := seed ^^^ (seed >>> 17)
  seed ^^^ (seed <<< 5)

/-- The draw of a random delay; `none` where it divides by zero. -/
def drawDelay (minDelayNs maxDelayNs seed : UInt32) : Option UInt32 :=
  let range := maxDelayNs - minDelayNs
  if 0 < range then
    if range + 1 = 0 then none else some (minDelayNs + seed % (range + 1))
  else some (minDelayNs + 0)

/-- Whether the device function draws its delay. -/
def isRandom : Injection → Bool
  | .random => true
  | .cluster _ useFixedDelay => !useFixedDelay
  | _ => false

/-- The delay that a thread asks `sleep_for_ns` for. -/
def threadDelay (injection : Injection) (minDelayNs delayNs clock : UInt32) (t : Thread launch) : Option UInt32 :=
  if isRandom injection then drawDelay minDelayNs delayNs (xorshift32 (threadSeed clock t)) else some delayNs

/-- A device with `__nanosleep`, as `__CUDA_ARCH__ / 10` tells. -/
structure Arch where
  sm : ℕ
  nanosleep : 70 ≤ sm

/-- Whether a thread sleeps. The CTAs of clusters are told apart from SM 9.0 on. -/
def selectsOn (arch : Arch) (injection : Injection) (clusterSeed : UInt32) (t : Thread launch) : Bool :=
  match injection with
  | .clusterWarp _ _ | .cluster _ _ => decide (90 ≤ arch.sm) && injection.selects clusterSeed t
  | _ => injection.selects clusterSeed t

def delayCall (arch : Arch) (injection : Injection) (minDelayNs delayNs clusterSeed clock : UInt32)
    (pred : Bool) (t : Thread launch) : Option (List UInt32) :=
  if pred && selectsOn arch injection clusterSeed t then
    (threadDelay injection minDelayNs delayNs clock t).map sleepForNs
  else some []

/-! ### Pieces -/

theorem sleepForNs_le (remaining : UInt32) : ∀ p ∈ sleepForNs remaining, p ≤ chunkNs := by
  fun_induction sleepForNs remaining with
  | case1 remaining hlt ih =>
    intro p hp
    obtain rfl | hp := List.mem_cons.mp hp
    · exact UInt32.le_refl _
    · exact ih p hp
  | case2 remaining hle hpos =>
    intro p hp
    obtain rfl := List.mem_singleton.mp hp
    exact UInt32.not_lt.mp hle
  | case3 => intro p hp; cases hp

theorem sleepForNs_sum (remaining : UInt32) :
    ((sleepForNs remaining).map UInt32.toNat).sum = remaining.toNat := by
  fun_induction sleepForNs remaining with
  | case1 remaining hlt ih =>
    have hle : chunkNs ≤ remaining := UInt32.le_of_lt hlt
    rw [List.map_cons, List.sum_cons, ih, UInt32.toNat_sub_of_le _ _ hle]
    rw [UInt32.le_iff_toNat_le] at hle
    omega
  | case2 remaining hle hpos => simp
  | case3 remaining hle hpos =>
    have hzero : remaining.toNat = 0 := by
      rw [UInt32.lt_iff_toNat_lt] at hpos
      simpa using hpos
    simp [hzero]

/-! ### Draws -/

/-- The subtraction `max - min` does not wrap, and the modulus `range + 1` is not zero. -/
def DrawsWithin (minDelayNs maxDelayNs : UInt32) : Prop :=
  minDelayNs ≤ maxDelayNs ∧ maxDelayNs - minDelayNs + 1 ≠ 0

theorem modulus_toNat {lo hi : UInt32} (hle : lo ≤ hi) :
    (hi - lo + 1).toNat = (hi.toNat - lo.toNat + 1) % 2 ^ 32 := by
  rw [UInt32.toNat_add, UInt32.toNat_sub_of_le _ _ hle]
  rfl

/-- Only the widest range leaves no modulus. -/
theorem drawsWithin_iff (lo hi : UInt32) :
    DrawsWithin lo hi ↔ lo ≤ hi ∧ ¬(lo = 0 ∧ hi = 4294967295) := by
  refine and_congr_right fun hle => not_congr ?_
  rw [← UInt32.toNat_inj, modulus_toNat hle, ← UInt32.toNat_inj, ← UInt32.toNat_inj]
  rw [UInt32.le_iff_toNat_le] at hle
  have hhi := hi.toNat_lt
  have hmax : (4294967295 : UInt32).toNat = 4294967295 := by decide
  have hzero : (0 : UInt32).toNat = 0 := by decide
  rw [hmax, hzero]
  omega

theorem drawDelay_within {lo hi : UInt32} (h : DrawsWithin lo hi) (seed : UInt32) :
    ∃ t, drawDelay lo hi seed = some t ∧ lo ≤ t ∧ t ≤ hi := by
  obtain ⟨hle, hmod⟩ := h
  have hsucc := modulus_toNat hle
  have hpos : 0 < (hi - lo + 1).toNat := Nat.pos_of_ne_zero fun hzero => hmod (UInt32.toNat_inj.mp hzero)
  have hrange : hi.toNat - lo.toNat + 1 < 2 ^ 32 := by
    have hhi := hi.toNat_lt
    omega
  rw [Nat.mod_eq_of_lt hrange] at hsucc
  unfold drawDelay
  simp only [hmod, if_false]
  split_ifs
  · have hdraw : (seed % (hi - lo + 1)).toNat ≤ hi.toNat - lo.toNat := by
      rw [UInt32.toNat_mod, hsucc]
      exact Nat.lt_succ_iff.mp (Nat.mod_lt _ (Nat.succ_pos _))
    have hhi := hi.toNat_lt
    simp only [UInt32.le_iff_toNat_le] at hle
    have hsum : (lo + seed % (hi - lo + 1)).toNat = lo.toNat + (seed % (hi - lo + 1)).toNat := by
      rw [UInt32.toNat_add]
      exact Nat.mod_eq_of_lt (by omega)
    refine ⟨_, rfl, ?_, ?_⟩
    · rw [UInt32.le_iff_toNat_le, hsum]
      omega
    · rw [UInt32.le_iff_toNat_le, hsum]
      omega
  · exact ⟨_, rfl, by simp, by simpa using hle⟩

/-- Where there is no room, a draw divides by zero or its result is out of an empty range. -/
theorem drawsWithin_of_drawDelay {lo hi seed t : UInt32} (hdraw : drawDelay lo hi seed = some t)
    (hlo : lo ≤ t) (hhi : t ≤ hi) : DrawsWithin lo hi := by
  have hle : lo ≤ hi := UInt32.le_trans hlo hhi
  refine ⟨hle, fun hmod => ?_⟩
  have hpos : 0 < hi - lo := by
    rw [UInt32.pos_iff_ne_zero]
    intro hzero
    rw [hzero] at hmod
    exact absurd hmod (by decide)
  simp [drawDelay, hpos, hmod] at hdraw

/-! ### Delay calls -/

/-- A thread sleeps as long as it should, in pieces the hardware takes: the delay of its point, or what
it draws between the smallest delay and that one. -/
def SleepsRight (injection : Injection) (minDelayNs delayNs : UInt32) (sleeps : Option (List UInt32)) : Prop :=
  ∃ pieces t, sleeps = some pieces ∧ (∀ p ∈ pieces, p ≤ chunkNs) ∧ (pieces.map UInt32.toNat).sum = t ∧
    if isRandom injection then minDelayNs.toNat ≤ t ∧ t ≤ delayNs.toNat else t = delayNs.toNat

theorem delayCall_right_iff {arch : Arch} {injection : Injection}
    {minDelayNs delayNs clusterSeed clock : UInt32} {t : Thread launch}
    (hsel : selectsOn arch injection clusterSeed t) :
    SleepsRight injection minDelayNs delayNs
        (delayCall arch injection minDelayNs delayNs clusterSeed clock true t) ↔
      (isRandom injection → DrawsWithin minDelayNs delayNs) := by
  simp only [SleepsRight, delayCall, hsel, Bool.and_self, if_true, threadDelay]
  split_ifs with hrandom
  · simp only [hrandom, true_implies]
    constructor
    · rintro ⟨pieces, t, hpieces, -, rfl, hlo, hhi⟩
      obtain ⟨d, hd, rfl⟩ := Option.map_eq_some_iff.mp hpieces
      rw [sleepForNs_sum] at hlo hhi
      exact drawsWithin_of_drawDelay hd (UInt32.le_iff_toNat_le.mpr hlo) (UInt32.le_iff_toNat_le.mpr hhi)
    · intro h
      obtain ⟨d, hd, hlo, hhi⟩ := drawDelay_within h (xorshift32 (threadSeed clock t))
      rw [UInt32.le_iff_toNat_le] at hlo hhi
      exact ⟨sleepForNs d, d.toNat, by rw [hd]; rfl, sleepForNs_le d, sleepForNs_sum d, hlo, hhi⟩
  · simp only [hrandom, Bool.false_eq_true, false_implies, iff_true]
    exact ⟨sleepForNs delayNs, delayNs.toNat, rfl, sleepForNs_le delayNs, sleepForNs_sum delayNs, rfl⟩

/-! ### From the environment to the thread -/

/-- What a process starts with: its environment, the files and how JSON is read. -/
structure Host where
  env : Env
  randomDelay : Bool
  probInRange : String → Bool
  randomSeed : UInt64
  parse : String → Option Json
  file : String → Option String

/-- The settings of the process, the delay and the cluster seed of a point that it gives a call. -/
def Host.delayPoint (host : Host) (kernelName kernelChecksum : String) (pcOffset : UInt64) (enabled : Bool) :
    Option (DelaySettings × UInt32 × UInt32) := do
  let s ← parseDelayConfig host.probInRange host.randomSeed host.randomDelay host.env
  let replay ← (replayConfig host.parse host.file s).toOption
  let call ← pointCall s replay kernelName kernelChecksum pcOffset enabled
  some (s, call)

theorem toUInt32_le {a b : UInt64} (hab : a ≤ b) (hb : b ≤ uint32Max) : a.toUInt32 ≤ b.toUInt32 := by
  rw [UInt64.le_iff_toNat_le] at hab hb
  have hmax : uint32Max.toNat = 2 ^ 32 - 1 := by decide
  rw [UInt32.le_iff_toNat_le, UInt64.toNat_toUInt32, UInt64.toNat_toUInt32, Nat.mod_eq_of_lt (by omega),
    Nat.mod_eq_of_lt (by omega)]
  exact hab

/-- The settings are checked against each other. -/
theorem delayMinNs_le {probInRange : String → Bool} {randomSeed : UInt64} {randomDelay : Bool} {env : Env}
    {s : DelaySettings} (h : parseDelayConfig probInRange randomSeed randomDelay env = some s) :
    s.delayMinNs ≤ s.delayNs := by
  simp only [parseDelayConfig, Option.bind_eq_bind, Option.bind_eq_some_iff, Option.guard_eq_some',
    exists_const] at h
  obtain ⟨-, hmax, -, hle, -, seed, -, targeting, -, -, h⟩ := h
  cases h
  exact toUInt32_le hle hmax

theorem pointCall_recorded {s : DelaySettings} {kernelName kernelChecksum : String} {pcOffset : UInt64}
    {enabled : Bool} {delayNs clusterSeed : UInt32}
    (h : pointCall s none kernelName kernelChecksum pcOffset enabled = some (delayNs, clusterSeed)) :
    delayNs = s.delayNs := by
  cases enabled with
  | false => cases h
  | true => exact (Prod.mk.inj (Option.some.inj h)).1.symm

/-- A thread that a delay call selects sleeps right, and its draw neither wraps nor divides by zero,
exactly if the call draws nothing or draws from a range that is not reversed and not the widest. In a
process that replays nothing no range is reversed. -/
theorem delayed_threads_sleep {host : Host} {kernelName kernelChecksum : String} {pcOffset : UInt64}
    {enabled : Bool} {s : DelaySettings} {delayNs clusterSeed : UInt32}
    (hpoint : host.delayPoint kernelName kernelChecksum pcOffset enabled = some (s, delayNs, clusterSeed)) :
    (∀ (arch : Arch) (launch : Launch) (t : Thread launch) (clock : UInt32),
      selectsOn arch (Stress.dispatch s.targeting) clusterSeed t →
        (SleepsRight (Stress.dispatch s.targeting) s.delayMinNs delayNs
            (delayCall arch (Stress.dispatch s.targeting) s.delayMinNs delayNs clusterSeed clock true t) ↔
          (isRandom (Stress.dispatch s.targeting) →
            s.delayMinNs ≤ delayNs ∧ ¬(s.delayMinNs = 0 ∧ delayNs = 4294967295)))) ∧
      (DrawsWithin s.delayMinNs delayNs ↔
        s.delayMinNs ≤ delayNs ∧ ¬(s.delayMinNs = 0 ∧ delayNs = 4294967295)) ∧
      (s.loadPath = "" → s.delayMinNs ≤ delayNs) := by
  refine ⟨fun arch launch t clock hsel => ?_, drawsWithin_iff _ _, fun hload => ?_⟩
  · rw [← drawsWithin_iff]
    exact delayCall_right_iff hsel
  · simp only [Host.delayPoint, Option.bind_eq_bind, Option.bind_eq_some_iff] at hpoint
    obtain ⟨s', hs, replay, hreplay, call, hcall, h⟩ := hpoint
    cases h
    rw [replayConfig, if_pos hload] at hreplay
    cases hreplay
    rw [pointCall_recorded hcall]
    exact delayMinNs_le hs

/-- A process that delays by `delayNs` at most. -/
def delayHost (delayNs : String) : Host where
  env := fun name => if name = "CUTRACER_DELAY_NS" then some delayNs else none
  randomDelay := true
  probInRange := fun _ => true
  randomSeed := 7
  parse := fun _ => none
  file := fun _ => none

def oneThreadLaunch : Launch where
  grid := ⟨1, 1, 1⟩
  block := ⟨1, 1, 1⟩
  cluster := ⟨1, 1, 1⟩
  grid_pos := ⟨by decide, by decide, by decide⟩
  whole_clusters := ⟨by decide, by decide, by decide⟩
  cluster_size := by decide

def onlyThread : Thread oneThreadLaunch where
  cta := ⟨0, 0, 0⟩
  index := ⟨0, 0, 0⟩
  cta_mem := ⟨by decide, by decide, by decide⟩
  index_mem := ⟨by decide, by decide, by decide⟩

/-- What `parse_delay_config` makes of that environment. -/
def delaySettings (delayNs : UInt32) : DelaySettings := ⟨delayNs, 0, 7, ⟨true, false, -1, 0, -1⟩, "", ""⟩

theorem delayed_threads_sleep_thousand :
    SleepsRight .random 0 1000 (delayCall ⟨90, by decide⟩ .random 0 1000 0 5 true onlyThread) :=
  ((delayed_threads_sleep (by decide : (delayHost "1000").delayPoint "k" "c" 16 true =
    some (delaySettings 1000, 1000, 0))).1 ⟨90, by decide⟩ oneThreadLaunch onlyThread 5 rfl).mpr
      fun _ => ⟨by decide, by decide⟩

/-- The largest delay over the smallest delay of the environment's default divides by zero. -/
theorem widest_delay_divides_by_zero :
    ¬∀ (host : Host) (kernelName kernelChecksum : String) (pcOffset : UInt64) (enabled : Bool)
      (s : DelaySettings) (delayNs clusterSeed : UInt32),
      host.delayPoint kernelName kernelChecksum pcOffset enabled = some (s, delayNs, clusterSeed) →
      ∀ (arch : Arch) (launch : Launch) (t : Thread launch) (clock : UInt32),
        selectsOn arch (Stress.dispatch s.targeting) clusterSeed t →
        SleepsRight (Stress.dispatch s.targeting) s.delayMinNs delayNs
          (delayCall arch (Stress.dispatch s.targeting) s.delayMinNs delayNs clusterSeed clock true t) := by
  intro h
  obtain ⟨pieces, t, hnone, -⟩ := h (delayHost "4294967295") "k" "c" 16 true (delaySettings 4294967295)
    4294967295 0 (by decide) ⟨90, by decide⟩ oneThreadLaunch onlyThread 5 rfl
  exact nomatch hnone

end CuTracer.Delay
