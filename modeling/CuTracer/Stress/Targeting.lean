import CuTracer.Device.Env
import CuTracer.Device.Launch
import CuTracer.Stress.Search

/-! Where the delays of an attempt land. The attempt names a warpgroup or a target, the
tool turns it into a warp mask and a CTA of each cluster, and a thread is delayed if both
select it. An attempt is counted only if some recorded launch has its target. -/

namespace CuTracer.Stress

open Device (Dim3 Env Launch Thread)
open Json (field)

/-! ### From the attempt to the tool -/

/-- The fields that place an attempt's delays. -/
structure Targeting where
  delayMode : String
  delayEnableProb : ℚ
  delayWarpgroupId : Option ℕ
  delayClusterCtaId : Option ℕ
  delayWarpMask : Option String

def attemptTargeting (config : StressConfig) (trial : Trial) : Targeting :=
  match trial.target with
  | none => ⟨"random", config.enableProb, trial.warpgroup, none, none⟩
  | some target =>
    ⟨match target.clusterRank with | none => "fixed" | some _ => "cluster_fixed", 1, none,
      target.clusterRank, some target.warpMask⟩

/-- What `build_cutracer_env` sets for them, over `base_env` or the process's own environment. -/
def targetingEnv (baseEnv : Env) (t : Targeting) : Env :=
  let env := baseEnv.set "CUTRACER_DELAY_MODE" t.delayMode
  let env := env.setOption "CUTRACER_CLUSTER_CTA_ID" (t.delayClusterCtaId.map toString)
  let env := env.setOption "CUTRACER_DELAY_WARPGROUP_ID" (t.delayWarpgroupId.map toString)
  env.setOption "CUTRACER_DELAY_WARP_MASK" t.delayWarpMask

/-! ### From the tool to the device -/

structure DelayTargeting where
  /-- `g_delay_mode == 1`. -/
  random : Bool
  /-- `g_delay_cta_target == 1`. -/
  onePerCluster : Bool
  clusterCtaId : Int32
  warpMask : UInt32
  warpgroupId : Int32
  deriving DecidableEq

/-- The distribution and the CTA targeting of `CUTRACER_DELAY_MODE`. -/
def delayMode : String → Option (Bool × Bool)
  | "random" => some (true, false)
  | "fixed" => some (false, false)
  | "cluster" => some (true, true)
  | "cluster_fixed" => some (false, true)
  | _ => none

/-- `parse_delay_config`; `none` where it exits. -/
def parseDelayConfig (env : Env) : Option DelayTargeting :=
  match delayMode (env.getVarStr "CUTRACER_DELAY_MODE" "random") with
  | none => none
  | some (random, onePerCluster) =>
    let warpgroupId := env.getVarInt "CUTRACER_DELAY_WARPGROUP_ID" (-1)
    if warpgroupId < -1 ∨ 8 ≤ warpgroupId then none
    else some ⟨random, onePerCluster, env.getVarInt "CUTRACER_CLUSTER_CTA_ID" (-1),
      env.getVarUInt32Auto "CUTRACER_DELAY_WARP_MASK" 0, warpgroupId⟩

def effectiveDelayWarpMask (warpMask : UInt32) (warpgroupId : Int32) : UInt32 :=
  if warpgroupId < 0 then warpMask
  else if warpgroupId < 8 then 0xF <<< (UInt32.ofInt (warpgroupId.toInt * 4))
  else 0

variable {launch : Launch}

/-- `cluster_cta_selected`; the arithmetic of `int` stays in its range. -/
def clusterCtaSelected (clusterSeed : UInt32) (ctaIdOverride : Int32) (t : Thread launch) : Bool :=
  let nctaid := launch.cluster
  let totalCtas := nctaid.x * nctaid.y * nctaid.z
  if totalCtas ≤ 1 then false
  else
    let ctaid := t.clusterCtaid
    let myCta := ctaid.x + ctaid.y * nctaid.x + ctaid.z * nctaid.x * nctaid.y
    let targetCta : ℤ :=
      if 0 ≤ ctaIdOverride then ctaIdOverride.toInt.tmod totalCtas
      else (clusterSeed.toNat % totalCtas : ℕ)
    myCta = targetCta

def ctaWarpSelected (warpMask : UInt32) (t : Thread launch) : Bool :=
  decide (t.warp < 32) && decide ((warpMask >>> t.warp) &&& 1 ≠ 0)

/-- The device functions that delay an instruction. -/
inductive Injection where
  | clusterWarp (warpMask : UInt32) (ctaIdOverride : Int32)
  | cluster (ctaIdOverride : Int32) (useFixedDelay : Bool)
  | warpgroup (warpMask : UInt32)
  | random
  | fixed
  deriving DecidableEq

def dispatch (g : DelayTargeting) : Injection :=
  let warpActive := decide (g.warpMask ≠ 0) || decide (0 ≤ g.warpgroupId)
  let warpMask := effectiveDelayWarpMask g.warpMask g.warpgroupId
  if g.onePerCluster && warpActive then .clusterWarp warpMask g.clusterCtaId
  else if g.onePerCluster then .cluster g.clusterCtaId (!g.random)
  else if warpActive then .warpgroup warpMask
  else if g.random then .random
  else .fixed

/-- Whether a thread sleeps; the seed is that of the instrumentation point. -/
def Injection.selects (injection : Injection) (clusterSeed : UInt32) (t : Thread launch) : Bool :=
  match injection with
  | .clusterWarp warpMask ctaIdOverride =>
    ctaWarpSelected warpMask t && clusterCtaSelected clusterSeed ctaIdOverride t
  | .cluster ctaIdOverride _ => clusterCtaSelected clusterSeed ctaIdOverride t
  | .warpgroup warpMask => ctaWarpSelected warpMask t
  | .random => true
  | .fixed => true

def delays (baseEnv : Env) (config : StressConfig) (trial : Trial) (clusterSeed : UInt32)
    (t : Thread launch) : Bool :=
  match parseDelayConfig (targetingEnv baseEnv (attemptTargeting config trial)) with
  | none => false
  | some g => (dispatch g).selects clusterSeed t

/-! ### Recorded launches -/

def dimsJson (d : Dim3) : Json := .arr [.int d.x, .int d.y, .int d.z]

/-- The dimensions that `write_kernel_launch_event` writes. -/
structure Recorded (launch : Launch) (event : LaunchEvent) : Prop where
  grid : field event "grid" = some (dimsJson launch.grid)
  block : field event "block" = some (dimsJson launch.block)
  cluster : field event "cluster_dim" = some (dimsJson launch.cluster)
  size : field event "cluster_size" = some (.int launch.cluster.volume)

def matchedLaunches (dir : EventDir) (checksum : String) : List LaunchEvent :=
  match dir with
  | .error _ => []
  | .ok files => ((files.filter isKernelEventsFile).flatMap fileLaunchEvents).filter fun event =>
      Json.isStr (field event "kernel_checksum") checksum

theorem validateTargetLaunch_eq_none {dir : EventDir} {checksum : String} {warp : ℕ}
    {clusterRank : Option ℕ} {label : String} :
    validateTargetLaunch dir checksum warp clusterRank label = none ↔
      ∃ event ∈ matchedLaunches dir checksum, targetLive warp clusterRank event = true := by
  unfold validateTargetLaunch matchedLaunches
  cases dir with
  | error exc => simp
  | ok files =>
    simp only [← List.any_eq_true]
    split_ifs with h <;> simp [h]

variable {event : LaunchEvent}

theorem targetLive_iff {warp : ℕ} {clusterRank : Option ℕ} :
    targetLive warp clusterRank event = true ↔
      (∃ warps, blockWarps event = some warps ∧ warp < warps) ∧
        ∀ rank, clusterRank = some rank → rank < clusterSize event := by
  unfold targetLive
  cases hblock : blockWarps event with
  | none => simp
  | some warps =>
    cases clusterRank with
    | none => simp
    | some rank => simp

theorem Recorded.cluster_pos (_ : Recorded launch event) : 1 ≤ launch.cluster.volume := by
  have hx := Nat.pos_of_dvd_of_pos launch.whole_clusters.1 launch.grid_pos.x
  have hy := Nat.pos_of_dvd_of_pos launch.whole_clusters.2.1 launch.grid_pos.y
  have hz := Nat.pos_of_dvd_of_pos launch.whole_clusters.2.2 launch.grid_pos.z
  exact Nat.mul_pos (Nat.mul_pos hx hy) hz

theorem Recorded.clusterSize_eq (h : Recorded launch event) :
    clusterSize event = launch.cluster.volume := by
  have hpos : (1 : ℤ) ≤ launch.cluster.volume := by
    have := h.cluster_pos
    omega
  simp [clusterSize, h.size, hpos]

theorem Recorded.blockWarps_iff (h : Recorded launch event) (warp : ℕ) :
    (∃ warps, blockWarps event = some warps ∧ warp < warps) ↔ 32 * warp < launch.block.volume := by
  have hblock := h.block
  generalize launch.block = block at hblock ⊢
  obtain ⟨x, y, z⟩ := block
  simp only [dimsJson] at hblock
  simp only [blockWarps, hblock, Dim3.volume]
  by_cases hpos : (0 : ℤ) < x ∧ (0 : ℤ) < y ∧ (0 : ℤ) < z
  · have hcast : (x * y * z : ℤ) = (x * y * z : ℕ) := by push_cast; rfl
    rw [if_pos hpos, hcast]
    simp only [Option.some.injEq, exists_eq_left']
    omega
  · have hzero : x * y * z = 0 := by
      simp only [Nat.mul_eq_zero]
      omega
    rw [if_neg hpos]
    simp [hzero]

/-! ### What the tool makes of a target -/

variable {config : StressConfig}

theorem mem_isolateWarpList {geometry : Option LaunchGeometry} {warp : ℕ}
    (h : warp ∈ isolateWarpList config geometry) : warp < 32 := by
  unfold isolateWarpList at h
  split at h
  · rename_i warps hwarps
    exact config.warps_range warps hwarps warp (mem_sortedSet.mp h)
  · rw [List.mem_range] at h
    simp only [maxWarps] at h
    omega

variable {trial : Trial}

/-- The trials of a schedule: a warpgroup of a random search or a target of an isolate one. -/
theorem trial_ranges {resumed : Bool} {geometry : Option LaunchGeometry}
    {targets : List DelayTarget} (htargets : planTargets config resumed geometry = .ok targets)
    (htrial : trial ∈ trialSchedule config targets) :
    (∀ group, trial.warpgroup = some group → group < 8) ∧
      ∀ target, trial.target = some target → target.warp < 32 := by
  unfold trialSchedule at htrial
  unfold planTargets at htargets
  cases hstrategy : config.strategy with
  | random =>
    simp only [hstrategy, List.mem_flatMap, List.mem_map] at htrial
    obtain ⟨delay, -, group, hgroup, attempt, -, rfl⟩ := htrial
    refine ⟨fun g hg => ?_, fun target h => absurd h (by simp)⟩
    unfold warpgroupAxis at hgroup
    split_ifs at hgroup with hnil
    · rw [List.mem_singleton.mp hgroup] at hg
      cases hg
    · obtain ⟨g', hg', rfl⟩ := List.mem_map.mp hgroup
      cases hg
      exact config.warpgroups_range g hg'
  | isolate =>
    simp only [hstrategy, List.mem_flatMap, List.mem_map] at htrial
    obtain ⟨target, htarget, delay, -, attempt, -, rfl⟩ := htrial
    refine ⟨fun g hg => absurd hg (by simp), fun t ht => ?_⟩
    cases ht
    simp only [hstrategy] at htargets
    split_ifs at htargets with hresumed
    unfold isolateTargets at htargets
    split_ifs at htargets
    rw [← Except.ok.inj htargets] at htarget
    simp only [List.mem_flatMap, List.mem_map] at htarget
    obtain ⟨rank, -, warp, hwarp, rfl⟩ := htarget
    exact mem_isolateWarpList hwarp

/-- The warpgroup that a target's attempt inherits: it sets none of its own. -/
def inheritedWarpgroup (baseEnv : Env) : Int32 := baseEnv.getVarInt "CUTRACER_DELAY_WARPGROUP_ID" (-1)

variable {baseEnv : Env}

theorem parse_target {target : DelayTarget} (htarget : trial.target = some target)
    (hwarp : target.warp < 32) (hrank : ∀ rank, target.clusterRank = some rank → rank < 2 ^ 31) :
    parseDelayConfig (targetingEnv baseEnv (attemptTargeting config trial)) =
      if inheritedWarpgroup baseEnv < -1 ∨ 8 ≤ inheritedWarpgroup baseEnv then none
      else some ⟨false, target.clusterRank.isSome,
        (target.clusterRank.map fun rank => Int32.ofInt rank).getD
          (baseEnv.getVarInt "CUTRACER_CLUSTER_CTA_ID" (-1)),
        UInt32.ofNat (2 ^ target.warp), inheritedWarpgroup baseEnv⟩ := by
  have hpow : 2 ^ target.warp < 2 ^ 32 := Nat.pow_lt_pow_right (by decide) hwarp
  have hmask : (Strtol.unsigned 0 target.warpMask.toList).toUInt32 =
      UInt32.ofNat (2 ^ target.warp) := by
    rw [DelayTarget.warpMask, toList_hex, Nat.one_shiftLeft, Strtol.unsigned_hex (by omega)]
    simp
  have hgroup : (targetingEnv baseEnv (attemptTargeting config trial)).getVarInt
      "CUTRACER_DELAY_WARPGROUP_ID" (-1) = inheritedWarpgroup baseEnv := by
    simp [targetingEnv, attemptTargeting, htarget, Env.setOption_apply, Env.set, Env.getVarInt,
      inheritedWarpgroup]
  rw [parseDelayConfig, hgroup]
  cases hr : target.clusterRank with
  | none =>
    simp [targetingEnv, attemptTargeting, htarget, hr, Env.setOption_apply, Env.set,
      Env.getVarStr, Env.getVarInt, Env.getVarUInt32Auto, delayMode, hmask]
  | some rank =>
    have hid := @Strtol.atoi_toDigits rank (by have := hrank rank hr; omega)
    simp [targetingEnv, attemptTargeting, htarget, hr, Env.setOption_apply, Env.set,
      Env.getVarStr, Env.getVarInt, Env.getVarUInt32Auto, delayMode, hmask, hid]

theorem parse_warpgroup {group : ℕ} (htarget : trial.target = none)
    (hgroup : trial.warpgroup = some group) (hlt : group < 8) :
    parseDelayConfig (targetingEnv baseEnv (attemptTargeting config trial)) =
      some ⟨true, false, baseEnv.getVarInt "CUTRACER_CLUSTER_CTA_ID" (-1),
        baseEnv.getVarUInt32Auto "CUTRACER_DELAY_WARP_MASK" 0, Int32.ofInt group⟩ := by
  have hid := @Strtol.atoi_toDigits group (by omega)
  have hrange : -1 ≤ Int32.ofInt group ∧ Int32.ofInt group < 8 := by
    interval_cases group <;> decide
  simp [parseDelayConfig, targetingEnv, attemptTargeting, htarget, hgroup, Env.setOption_apply,
    Env.set, Env.getVarStr, Env.getVarInt, Env.getVarUInt32Auto, delayMode, hid, hrange]

/-! ### Which threads are delayed -/

theorem ctaWarpSelected_iff {warpMask : UInt32} {t : Thread launch} :
    ctaWarpSelected warpMask t = true ↔
      t.warp.toNat < 32 ∧ warpMask.toNat.testBit t.warp.toNat = true := by
  simp only [ctaWarpSelected, Bool.and_eq_true, decide_eq_true_eq, UInt32.lt_iff_toNat_lt]
  constructor
  · rintro ⟨hlt, hbit⟩
    exact ⟨hlt, (Device.shiftRight_and_one warpMask t.warp hlt).mp hbit⟩
  · rintro ⟨hlt, hbit⟩
    exact ⟨hlt, (Device.shiftRight_and_one warpMask t.warp hlt).mpr hbit⟩

theorem clusterCtaSelected_iff {seed : UInt32} {rank : ℕ} (hrank : rank < 2 ^ 31) {t : Thread launch} :
    clusterCtaSelected seed (Int32.ofInt rank) t = true ↔
      1 < launch.cluster.volume ∧
        launch.cluster.linear t.clusterCtaid = rank % launch.cluster.volume := by
  have htoInt : (Int32.ofInt rank).toInt = rank := Int32.toInt_ofInt_of_le (by omega) (by omega)
  have hnonneg : (0 : Int32) ≤ Int32.ofInt rank := by
    rw [Int32.le_iff_toInt_le, htoInt]
    exact Int.natCast_nonneg rank
  have hlinear : ∀ c : Dim3, c.x + c.y * launch.cluster.x +
      c.z * launch.cluster.x * launch.cluster.y = launch.cluster.linear c := by
    intro c
    rw [Dim3.linear]
    ring
  have hvolume : launch.cluster.x * launch.cluster.y * launch.cluster.z = launch.cluster.volume := rfl
  unfold clusterCtaSelected
  simp only [hvolume, hlinear, hnonneg, if_true, htoInt]
  split_ifs with hle
  · simp only [false_iff, not_and]
    omega
  · rw [decide_eq_true_eq, ← Int.ofNat_tmod, Int.natCast_inj]
    exact (and_iff_right (by omega)).symm

/-- A warpgroup is four warps of every CTA, whatever the mask says. -/
theorem ctaWarpSelected_warpgroup {group : ℕ} (hlt : group < 8) {warpMask : UInt32}
    {t : Thread launch} :
    ctaWarpSelected (effectiveDelayWarpMask warpMask (Int32.ofInt group)) t = true ↔
      t.warp.toNat / 4 = group := by
  have hmask : ∀ g < 8, ∀ w < 32,
      (effectiveDelayWarpMask 0 (Int32.ofInt (g : ℕ))).toNat.testBit w = decide (w / 4 = g) := by
    decide +kernel
  have hactive : ¬Int32.ofInt group < 0 := by interval_cases group <;> decide
  have hmask₀ : effectiveDelayWarpMask warpMask (Int32.ofInt group) =
      effectiveDelayWarpMask 0 (Int32.ofInt group) := by
    simp only [effectiveDelayWarpMask, hactive, if_false]
  rw [ctaWarpSelected_iff, hmask₀]
  constructor
  · rintro ⟨hw, hbit⟩
    rw [hmask group hlt _ hw] at hbit
    exact of_decide_eq_true hbit
  · intro hw
    have hw32 : t.warp.toNat < 32 := by omega
    exact ⟨hw32, by rw [hmask group hlt _ hw32, decide_eq_true hw]⟩

theorem delays_warpgroup_iff {group : ℕ} (htarget : trial.target = none)
    (hgroup : trial.warpgroup = some group) (hlt : group < 8) {seed : UInt32} {t : Thread launch} :
    delays baseEnv config trial seed t = true ↔ t.warp.toNat / 4 = group := by
  have hactive : (0 : Int32) ≤ Int32.ofInt group := by interval_cases group <;> decide
  unfold delays
  rw [parse_warpgroup htarget hgroup hlt]
  simp only [dispatch, hactive, decide_true, Bool.or_true, Bool.false_and, Bool.false_eq_true,
    if_false, if_true, Injection.selects]
  exact ctaWarpSelected_warpgroup hlt

/-- The attempt's process inherits no warpgroup, or the one of the warp. -/
def KeepsWarp (baseEnv : Env) (warp : ℕ) : Prop :=
  inheritedWarpgroup baseEnv = -1 ∨ inheritedWarpgroup baseEnv = Int32.ofInt (warp / 4 : ℕ)

/-- The mask of a target is that of its warp, unless a warpgroup is inherited. -/
theorem ctaWarpSelected_target {warp : ℕ} (hwarp : warp < 32)
    (hrange : ¬(inheritedWarpgroup baseEnv < -1 ∨ 8 ≤ inheritedWarpgroup baseEnv))
    {t : Thread launch} (ht : t.warp.toNat = warp) :
    ctaWarpSelected (effectiveDelayWarpMask (UInt32.ofNat (2 ^ warp)) (inheritedWarpgroup baseEnv))
      t = true ↔ KeepsWarp baseEnv warp := by
  unfold KeepsWarp
  generalize inheritedWarpgroup baseEnv = group at hrange ⊢
  rw [not_or, Int32.not_lt, Int32.not_le, Int32.le_iff_toInt_le, Int32.lt_iff_toInt_lt] at hrange
  have hrange : -1 ≤ group.toInt ∧ group.toInt < 8 := hrange
  by_cases hnone : group.toInt = -1
  · have hgroup : group = -1 := Int32.toInt_inj.mp hnone
    have hpow : 2 ^ warp < 2 ^ 32 := Nat.pow_lt_pow_right (by decide) hwarp
    subst hgroup
    refine iff_of_true ?_ (.inl rfl)
    show ctaWarpSelected (UInt32.ofNat (2 ^ warp)) t = true
    rw [ctaWarpSelected_iff, UInt32.toNat_ofNat_of_lt' hpow, Nat.testBit_two_pow, ht]
    exact ⟨hwarp, decide_eq_true rfl⟩
  · obtain ⟨n, hn⟩ := Int.eq_ofNat_of_zero_le (a := group.toInt) (by omega)
    have hlt : n < 8 := by omega
    have hgroup : group = Int32.ofInt n := by rw [← hn, Int32.ofInt_toInt]
    have hwarps : warp / 4 < 8 := by omega
    rw [hgroup, ctaWarpSelected_warpgroup hlt, ht]
    generalize warp / 4 = m at hwarps ⊢
    have hall : ∀ m < 8, ∀ n < 8,
        (m = n ↔ Int32.ofInt (n : ℕ) = -1 ∨ Int32.ofInt (n : ℕ) = Int32.ofInt (m : ℕ)) := by
      decide +kernel
    exact hall m hwarps n hlt

/-- The threads of a target's warp are delayed, those of the right CTA in a cluster of several,
where the process keeps the warp. -/
theorem delays_target_iff {target : DelayTarget} (htarget : trial.target = some target)
    (hwarp : target.warp < 32) (hrank : ∀ rank, target.clusterRank = some rank → rank < 2 ^ 31)
    {seed : UInt32} {t : Thread launch} (ht : t.warp.toNat = target.warp) :
    delays baseEnv config trial seed t = true ↔ KeepsWarp baseEnv target.warp ∧
      ∀ rank, target.clusterRank = some rank → 1 < launch.cluster.volume ∧
        launch.cluster.linear t.clusterCtaid = rank % launch.cluster.volume := by
  have hpow : 2 ^ target.warp < 2 ^ 32 := Nat.pow_lt_pow_right (by decide) hwarp
  have hne : UInt32.ofNat (2 ^ target.warp) ≠ 0 := by
    rw [← UInt32.toNat_inj.ne, UInt32.toNat_ofNat_of_lt' hpow]
    exact Nat.ne_of_gt (Nat.two_pow_pos _)
  unfold delays
  rw [parse_target htarget hwarp hrank]
  by_cases hrange : inheritedWarpgroup baseEnv < -1 ∨ 8 ≤ inheritedWarpgroup baseEnv
  · rw [if_pos hrange]
    refine iff_of_false Bool.false_ne_true fun ⟨hkeeps, _⟩ => ?_
    have hwarps : target.warp / 4 < 8 := by omega
    unfold KeepsWarp at hkeeps
    generalize target.warp / 4 = m at hwarps hkeeps
    obtain hnone | hown := hkeeps
    · rw [hnone] at hrange
      revert hrange
      decide
    · rw [hown] at hrange
      interval_cases m <;> revert hrange <;> decide
  · rw [if_neg hrange]
    have hselected := ctaWarpSelected_target hwarp hrange ht
    cases hr : target.clusterRank with
    | none => simp [dispatch, hne, Injection.selects, hselected]
    | some rank =>
      have hcta := @clusterCtaSelected_iff launch seed rank (hrank rank hr) t
      simp [dispatch, hne, Injection.selects, hselected, hcta]

/-! ### Counted attempts -/

theorem kernelEnabledCount_pos {delayNs n : ℕ} {kernel : List (String × Json)}
    (h : enabledPcs delayNs kernel ≠ []) (hn : kernelEnabledCount (.obj kernel) = some n) : 0 < n := by
  unfold enabledPcs at h
  split at h
  · rename_i points hpoints
    obtain ⟨pc, hpc⟩ := List.exists_mem_of_ne_nil _ h
    obtain ⟨p, hp, hpc⟩ := List.mem_filterMap.mp (List.mem_dedup.mp hpc)
    simp only [kernelEnabledCount, hpoints, Option.getD_some, Option.some.injEq] at hn
    rw [← hn, List.countP_pos_iff]
    refine ⟨p, hp, ?_⟩
    unfold enabledPc at hpc
    split at hpc
    · split_ifs at hpc with hon
      exact hon
    · cases hpc
  · exact absurd rfl h

theorem sum_mapM_pos {α : Type} {f : α → Option ℕ} {xs : List α} {counts : List ℕ}
    (h : xs.mapM f = some counts) {x : α} (hx : x ∈ xs) (hpos : ∀ n, f x = some n → 0 < n) :
    0 < counts.foldr (· + ·) 0 := by
  induction xs generalizing counts with
  | nil => cases hx
  | cons y ys ih =>
    simp only [List.mapM_cons, Option.bind_eq_bind, Option.bind_eq_some_iff, Option.pure_def,
      Option.some.injEq] at h
    obtain ⟨n, hn, ns, hns, rfl⟩ := h
    rw [List.foldr_cons]
    rcases List.mem_cons.mp hx with rfl | hx
    · have := hpos n hn
      omega
    · have := ih hns hx
      omega

theorem enabledPointCount_ne_zero {repr : Json → String} {delayNs : ℕ} {dump : Option Dump}
    {valid : ValidConfig} (h : validateDelayConfig repr config delayNs dump = .ok valid) :
    dump.bind enabledPointCount ≠ some 0 := by
  unfold validateDelayConfig at h
  split at h
  · cases h
  · cases h
  · rename_i payload
    dsimp only at h
    split at h
    · cases h
    split at h
    · cases h
    split at h
    · rename_i k ks hkernels
      split at h
      · rename_i m hfind
        obtain ⟨k', hk', hm⟩ := List.mem_filterMap.mp (List.mem_of_find?_eq_some hfind)
        have hpcs : enabledPcs delayNs m.2.2 ≠ [] := by simpa using List.find?_some hfind
        have hkernel : k'.2 = .obj m.2.2 := by
          unfold matchedKernel at hm
          split at hm
          · rename_i kernel hobj
            split at hm
            · dsimp only at hm
              split_ifs at hm
              cases hm
              exact hobj
            · cases hm
          · cases hm
        simp only [Option.bind_some, enabledPointCount, hkernels, Option.getD_some, ne_eq,
          Option.map_eq_some_iff, not_exists, not_and]
        intro counts hcounts
        have hpos := sum_mapM_pos hcounts hk' fun n hn =>
          kernelEnabledCount_pos hpcs (hkernel ▸ hn)
        omega
      · split at h <;> cases h
    · cases h
  · cases h

/-- An attempt with a valid config is counted if its target is live. -/
theorem targetingError_of_counted {repr : Json → String} {run : AttemptRun} {valid : ValidConfig}
    {verdict : Verdict}
    (hvalid : validateDelayConfig repr config trial.delayNs run.dump = .ok valid)
    (hverdict : attemptVerdict repr config trial run = .ok verdict)
    (hcounted : (attemptResult config trial run verdict).completedTrials = 1) :
    targetingError run trial valid.kernelChecksum = none := by
  have key : ∀ code, returnedVerdict repr config trial run code = verdict →
      targetingError run trial valid.kernelChecksum = none := by
    intro code hv
    cases htargeting : targetingError run trial valid.kernelChecksum with
    | none => rfl
    | some e =>
      unfold returnedVerdict at hv
      simp only [hvalid, htargeting] at hv
      split_ifs at hv with hunexpected hzero
      · rw [← hv] at hcounted
        simp [attemptResult] at hcounted
      · exact absurd hzero.2 (enabledPointCount_ne_zero hvalid)
      · rw [← hv] at hcounted
        simp [attemptResult] at hcounted
  unfold attemptVerdict at hverdict
  split at hverdict
  · cases hverdict
  · rw [← Except.ok.inj hverdict] at hcounted
    simp [attemptResult] at hcounted
  · split_ifs at hverdict
    · exact key none (Except.ok.inj hverdict)
    · rw [← Except.ok.inj hverdict] at hcounted
      simp [attemptResult] at hcounted
  · exact key _ (Except.ok.inj hverdict)

def InTarget (trial : Trial) (t : Thread launch) : Prop :=
  match trial.target with
  | none => ∀ group, trial.warpgroup = some group → t.warp.toNat / 4 = group
  | some target => t.warp.toNat = target.warp ∧
      ∀ rank, target.clusterRank = some rank → launch.cluster.linear t.clusterCtaid = rank

/-- Some recorded launch of the kernel has a thread of the target that the attempt delays. -/
def Reached (baseEnv : Env) (config : StressConfig) (trial : Trial) (dir : EventDir)
    (checksum : String) : Prop :=
  ∃ event ∈ matchedLaunches dir checksum, ∃ launch, Recorded launch event ∧
    ∃ t : Thread launch, InTarget trial t ∧ ∀ seed, delays baseEnv config trial seed t = true

/-- A live target is delayed, unless it is the only CTA of its cluster. -/
theorem Recorded.exists_delayed {target : DelayTarget} (h : Recorded launch event)
    (htarget : trial.target = some target) (hwarp : target.warp < 32)
    (hkeeps : KeepsWarp baseEnv target.warp)
    (hlive : targetLive target.warp target.clusterRank event = true)
    (hcluster : ∀ rank, target.clusterRank = some rank → 1 < clusterSize event) :
    ∃ t : Thread launch, InTarget trial t ∧
      ∀ seed, delays baseEnv config trial seed t = true := by
  obtain ⟨hblock, hrank⟩ := targetLive_iff.mp hlive
  have hsize := (h.blockWarps_iff target.warp).mp hblock
  rw [h.clusterSize_eq] at hrank
  have hbound : ∀ rank, target.clusterRank = some rank → rank < 2 ^ 31 := fun rank hr =>
    Nat.lt_trans (hrank rank hr) launch.cluster_size
  obtain ⟨cta, hcta, hposition⟩ : ∃ cta, launch.grid.Contains cta ∧ ∀ rank,
      target.clusterRank = some rank → ∀ t : Thread launch, t.cta = cta →
        launch.cluster.linear t.clusterCtaid = rank := by
    cases hr : target.clusterRank with
    | none => exact ⟨⟨0, 0, 0⟩, launch.grid_pos, fun rank h => absurd h (by simp)⟩
    | some rank =>
      obtain ⟨cta, hcta, hposition⟩ := Launch.exists_cta (hrank rank hr)
      refine ⟨cta, hcta, fun rank' hrank' t ht => ?_⟩
      rw [← Option.some.inj hrank']
      exact hposition t ht
  obtain ⟨t, ht, htwarp⟩ := Launch.exists_warp hwarp hsize hcta
  refine ⟨t, ?_, fun seed => (delays_target_iff htarget hwarp hbound htwarp).mpr ⟨hkeeps, ?_⟩⟩
  · rw [InTarget, htarget]
    exact ⟨htwarp, fun rank hr => hposition rank hr t ht⟩
  · intro rank hr
    have hone := hcluster rank hr
    rw [h.clusterSize_eq] at hone
    exact ⟨hone, by rw [hposition rank hr t ht, Nat.mod_eq_of_lt (hrank rank hr)]⟩

/-- An attempt that is counted delays its target on some launch, except that a target is
missed where its process inherits the warpgroup of other warps, and one of cluster rank 0
where no launch has clusters. -/
theorem counted_reached_iff {repr : Json → String} {baseEnv : Env} {config : StressConfig}
    {resumed : Bool} {geometry : Option LaunchGeometry} {targets : List DelayTarget} {trial : Trial}
    {run : AttemptRun} {valid : ValidConfig} {verdict : Verdict}
    (htargets : planTargets config resumed geometry = .ok targets)
    (htrial : trial ∈ trialSchedule config targets)
    (htargeted : trial.target.isSome ∨ trial.warpgroup.isSome)
    (hrecorded : ∀ event ∈ matchedLaunches run.events valid.kernelChecksum,
      ∃ launch, Recorded launch event)
    (hvalid : validateDelayConfig repr config trial.delayNs run.dump = .ok valid)
    (hverdict : attemptVerdict repr config trial run = .ok verdict)
    (hcounted : (attemptResult config trial run verdict).completedTrials = 1) :
    Reached baseEnv config trial run.events valid.kernelChecksum ↔
      ∀ target, trial.target = some target → KeepsWarp baseEnv target.warp ∧
        (target.clusterRank = some 0 →
          ∃ event ∈ matchedLaunches run.events valid.kernelChecksum,
            targetLive target.warp none event = true ∧ 1 < clusterSize event) := by
  obtain ⟨hgroups, hwarps⟩ := trial_ranges htargets htrial
  have hnone := targetingError_of_counted hvalid hverdict hcounted
  cases htarget : trial.target with
  | none =>
    rw [htarget] at htargeted
    obtain ⟨group, hgroup⟩ := Option.isSome_iff_exists.mp (htargeted.resolve_left (by simp))
    have hlt := hgroups group hgroup
    rw [targetingError, htarget, hgroup] at hnone
    obtain ⟨event, hevent, hlive⟩ := validateTargetLaunch_eq_none.mp hnone
    obtain ⟨launch, hlaunch⟩ := hrecorded event hevent
    refine iff_of_true ⟨event, hevent, launch, hlaunch, ?_⟩ (by simp)
    have hsize := (hlaunch.blockWarps_iff (4 * group)).mp (targetLive_iff.mp hlive).1
    obtain ⟨t, -, ht⟩ := Launch.exists_warp (by omega) hsize launch.grid_pos
    have hgroup_eq : t.warp.toNat / 4 = group := by omega
    refine ⟨t, ?_, fun seed => (delays_warpgroup_iff htarget hgroup hlt).mpr hgroup_eq⟩
    rw [InTarget, htarget]
    intro group' hgroup'
    rw [hgroup_eq]
    exact Option.some.inj (hgroup.symm.trans hgroup')
  | some target =>
    have hwarp := hwarps target htarget
    rw [targetingError, htarget] at hnone
    obtain ⟨event, hevent, hlive⟩ := validateTargetLaunch_eq_none.mp hnone
    have hrank : ∀ rank, target.clusterRank = some rank → rank < 2 ^ 31 := by
      intro rank hr
      obtain ⟨launch, hlaunch⟩ := hrecorded event hevent
      have hlt := (targetLive_iff.mp hlive).2 rank hr
      rw [hlaunch.clusterSize_eq] at hlt
      exact Nat.lt_trans hlt launch.cluster_size
    constructor
    · rintro ⟨event', hevent', launch, hlaunch, t, hin, ht⟩ target' heq
      cases heq
      rw [InTarget, htarget] at hin
      obtain ⟨htwarp, -⟩ := hin
      obtain ⟨hkeeps, hcta⟩ := (delays_target_iff htarget hwarp hrank htwarp).mp (ht 0)
      refine ⟨hkeeps, fun hzero => ⟨event', hevent', ?_, ?_⟩⟩
      · have hsize : 32 * target.warp < launch.block.volume := htwarp ▸ t.warp_lt
        exact targetLive_iff.mpr ⟨(hlaunch.blockWarps_iff target.warp).mpr hsize, by simp⟩
      · rw [hlaunch.clusterSize_eq]
        exact (hcta 0 hzero).1
    · intro hcondition
      obtain ⟨hkeeps, hcondition⟩ := hcondition target rfl
      by_cases hzero : target.clusterRank = some 0
      · -- a launch with clusters has rank 0
        obtain ⟨event', hevent', hlive', hone⟩ := hcondition hzero
        obtain ⟨launch, hlaunch⟩ := hrecorded event' hevent'
        have hlive'' : targetLive target.warp target.clusterRank event' = true := by
          refine targetLive_iff.mpr ⟨(targetLive_iff.mp hlive').1, fun rank hr => ?_⟩
          rw [hzero] at hr
          rw [← Option.some.inj hr]
          omega
        exact ⟨event', hevent', launch, hlaunch,
          hlaunch.exists_delayed htarget hwarp hkeeps hlive'' fun _ _ => hone⟩
      · -- a rank above 0 is below the cluster size
        obtain ⟨launch, hlaunch⟩ := hrecorded event hevent
        refine ⟨event, hevent, launch, hlaunch,
          hlaunch.exists_delayed htarget hwarp hkeeps hlive fun rank hr => ?_⟩
        have hlt := (targetLive_iff.mp hlive).2 rank hr
        have hne : rank ≠ 0 := by
          rintro rfl
          exact hzero hr
        omega

/-! ### One warp of one cluster rank -/

theorem some_singleton_ne_nil (n : ℕ) : some [n] ≠ some [] := by simp

theorem warps_range_zero : ∀ warps, some [0] = some warps → ∀ warp ∈ warps, warp < maxWarps := by
  intro warps h warp hwarp
  rw [← Option.some.inj h, List.mem_singleton] at hwarp
  rw [hwarp, maxWarps]
  omega

theorem isolate_no_groups (_ : Strategy.isolate = .isolate) : ([] : List ℕ) = [] := rfl

theorem isolate_ne_random {p : Prop} (h : Strategy.isolate = .random) : p := Strategy.noConfusion h

theorem ladder_pos_thousand : ∀ d ∈ [1000], 0 < d := by decide

def isolateRank (rank : ℕ) : StressConfig where
  delayLadderNs := [1000]
  enableProb := 1
  warpgroupIds := []
  attemptsPerDelay := 1
  stopOnFirst := true
  notInterestingExitCodes := []
  kernelFilters := none
  baselineRuns := 0
  outputDir := "/out"
  kernelTimeoutS := 0
  hangIsBug := false
  strategy := .isolate
  isolateRanks := some [rank]
  isolateWarps := some [0]
  delayPatterns := none
  expectedKernelName := none
  expectedKernelChecksum := none
  ladder_ne_nil := List.cons_ne_nil 1000 []
  ladder_pos := ladder_pos_thousand
  attempts_pos := attempts_pos_one
  prob_range := prob_range_one
  warpgroups_range := warpgroups_range_nil
  isolate_no_warpgroups := isolate_no_groups
  random_no_targets := isolate_ne_random
  ranks_ne_nil := some_singleton_ne_nil rank
  warps_ne_nil := some_singleton_ne_nil 0
  warps_range := warps_range_zero

def rankTrial (rank : ℕ) : Trial := ⟨1000, 0, none, some ⟨0, some rank⟩⟩

theorem pair_cluster_size {clusters : ℕ} (h : clusters ∣ 2) :
    (⟨clusters, 1, 1⟩ : Dim3).volume < 2 ^ 31 := by
  have := Nat.le_of_dvd Nat.two_pos h
  simp only [Dim3.volume]
  omega

/-- A launch of two CTAs of one warp, in clusters of the given size. -/
def pairLaunch (clusters : ℕ) (h : clusters ∣ 2) : Launch where
  grid := ⟨2, 1, 1⟩
  block := ⟨32, 1, 1⟩
  cluster := ⟨clusters, 1, 1⟩
  grid_pos := ⟨Nat.two_pos, Nat.one_pos, Nat.one_pos⟩
  whole_clusters := ⟨h, Nat.dvd_refl 1, Nat.dvd_refl 1⟩
  cluster_size := pair_cluster_size h

def pairEvent (clusters : ℕ) : LaunchEvent :=
  [("type", .str "kernel_launch"), ("kernel_checksum", .str "c0"),
    ("grid", dimsJson ⟨2, 1, 1⟩), ("block", dimsJson ⟨32, 1, 1⟩),
    ("cluster_dim", dimsJson ⟨clusters, 1, 1⟩), ("cluster_size", .int (clusters * 1 * 1 : ℕ))]

/-- A run that passes, with one enabled point and one launch. -/
def pairRun (clusters : ℕ) : AttemptRun where
  target := .completed 1 "" ""
  dump := some (.ok (.obj [("version", .str "1.0"), ("delay_ns", .int 1000),
    ("kernels", .obj [("k", .obj [("kernel_name", .str "gemm"), ("kernel_checksum", .str "c0"),
      ("instrumentation_points", .obj [("16", .obj [("pc", .int 16), ("sass", .str "SYNCS"),
        ("delay", .int 1000), ("on", .bool true)])])])])]))
  watchdog := []
  events := .ok [⟨"cutracer_kernel_events_1.ndjson", [some (.obj (pairEvent clusters))], none⟩]
  rejectedSuffix := none

theorem matchedLaunches_pair (clusters : ℕ) :
    matchedLaunches (pairRun clusters).events "c0" = [pairEvent clusters] := by
  have hname : ("cutracer_kernel_events_".toList.isPrefixOf "cutracer_kernel_events_1.ndjson".toList &&
      ".ndjson".toList.isSuffixOf "cutracer_kernel_events_1.ndjson".toList) = true := by decide +kernel
  have hevent : launchEvent (some (.obj (pairEvent clusters))) = some (pairEvent clusters) := by
    simp [launchEvent, pairEvent, field, Dict.lookup, Json.isStr]
  have hchecksum : Json.isStr (field (pairEvent clusters) "kernel_checksum") "c0" = true := by
    simp [pairEvent, field, Dict.lookup, Json.isStr]
  simp only [matchedLaunches, pairRun, List.filter_cons, isKernelEventsFile, hname, if_true,
    List.filter_nil, List.flatMap_cons, List.flatMap_nil, fileLaunchEvents, List.filterMap_cons, hevent,
    List.filterMap_nil, List.append_nil, hchecksum]

theorem recorded_pair {clusters : ℕ} (h : clusters ∣ 2) :
    Recorded (pairLaunch clusters h) (pairEvent clusters) := ⟨rfl, rfl, rfl, rfl⟩

def groupEnv (group : String) : Env := Env.set "CUTRACER_DELAY_WARPGROUP_ID" group fun _ => none

theorem counted_reached_small :
    Reached (groupEnv "0") (isolateRank 0) (rankTrial 0) (pairRun 2).events "c0" := by
  refine (@counted_reached_iff (fun _ => "") (groupEnv "0") (isolateRank 0) false none
    [⟨0, some 0⟩] (rankTrial 0) (pairRun 2) ⟨"gemm", "c0", 1⟩ .clean rfl (by decide) (.inl rfl) ?_
    rfl rfl rfl).mpr ?_
  · rw [matchedLaunches_pair]
    simp only [List.mem_singleton, forall_eq]
    exact ⟨pairLaunch 2 (Nat.dvd_refl 2), recorded_pair _⟩
  · intro target htarget
    cases htarget
    have hkeeps : inheritedWarpgroup (groupEnv "0") = Int32.ofInt (0 / 4 : ℕ) := by decide +kernel
    exact ⟨.inr hkeeps, fun _ =>
      ⟨pairEvent 2, by rw [matchedLaunches_pair, List.mem_singleton], rfl, Nat.one_lt_two⟩⟩

theorem rankTrial_delayed {rank clusters : ℕ} (hrank : rank < 2 ^ 31)
    (h : Reached baseEnv (isolateRank rank) (rankTrial rank) (pairRun clusters).events "c0") :
    KeepsWarp baseEnv 0 ∧ 1 < clusterSize (pairEvent clusters) := by
  obtain ⟨event, hevent, launch, hlaunch, t, ⟨ht, -⟩, hdelayed⟩ := h
  rw [matchedLaunches_pair, List.mem_singleton] at hevent
  have hbound : ∀ r, (⟨0, some rank⟩ : DelayTarget).clusterRank = some r → r < 2 ^ 31 := by
    intro r hr
    rwa [← Option.some.inj hr]
  have hwarp : 0 < 32 := by decide
  obtain ⟨hkeeps, hcta⟩ := (delays_target_iff rfl hwarp hbound ht).mp (hdelayed 0)
  refine ⟨hkeeps, ?_⟩
  rw [← hevent, hlaunch.clusterSize_eq]
  exact (hcta rank rfl).1

/-- Rank 0 of launches without clusters passes the launch check and is never delayed; so does a
warp whose attempt inherits the warpgroup of others. -/
theorem rank_zero_not_reached :
    (planTargets (isolateRank 0) false none = .ok [⟨0, some 0⟩] ∧
      rankTrial 0 ∈ trialSchedule (isolateRank 0) [⟨0, some 0⟩] ∧
      attemptVerdict (fun _ => "") (isolateRank 0) (rankTrial 0) (pairRun 1) = .ok .clean ∧
      (attemptResult (isolateRank 0) (rankTrial 0) (pairRun 1) .clean).completedTrials = 1 ∧
      ¬Reached (fun _ => none) (isolateRank 0) (rankTrial 0) (pairRun 1).events "c0") ∧
    planTargets (isolateRank 1) false none = .ok [⟨0, some 1⟩] ∧
      rankTrial 1 ∈ trialSchedule (isolateRank 1) [⟨0, some 1⟩] ∧
      attemptVerdict (fun _ => "") (isolateRank 1) (rankTrial 1) (pairRun 2) = .ok .clean ∧
      (attemptResult (isolateRank 1) (rankTrial 1) (pairRun 2) .clean).completedTrials = 1 ∧
      ¬Reached (groupEnv "3") (isolateRank 1) (rankTrial 1) (pairRun 2).events "c0" := by
  refine ⟨⟨rfl, by decide, rfl, rfl, fun h => ?_⟩, rfl, by decide, rfl, rfl, fun h => ?_⟩
  · have hone : clusterSize (pairEvent 1) = 1 := rfl
    have := (rankTrial_delayed (by decide) h).2
    omega
  · have hkeeps := (rankTrial_delayed (by decide) h).1
    unfold KeepsWarp at hkeeps
    revert hkeeps
    decide +kernel

end CuTracer.Stress
