import CuTracer.Delay.Config

/-! A dumped delay config replays exactly. What is loaded has the entries that were dumped,
whatever the order of their texts, and a kernel is found by its checksum because the
checksum is the end of its key. -/

namespace CuTracer.Delay

open Json (field setField assemble)

/-! ### Maps that are loaded entry by entry -/

section Loading

variable {ε α κ ν : Type} [DecidableEq κ] {load : α → Except ε (κ × ν)}

/-- A loop that loads every entry under its key. -/
theorem foldlM_insert {xs : List α} (h : ∀ x ∈ xs, ∃ e, load x = .ok e) (d : Dict κ ν) :
    xs.foldlM (fun d x => (load x).map fun e => d.insert e.1 e.2) d =
      .ok (((xs.map load).filterMap Except.toOption).foldl (fun d e => d.insert e.1 e.2) d) := by
  induction xs generalizing d with
  | nil => rfl
  | cons x xs ih =>
    obtain ⟨e, he⟩ := h x (by simp)
    rw [List.foldlM_cons, List.map_cons, he]
    exact ih (fun y hy => h y (by simp [hy])) _

/-- A map that is loaded from the texts of some entries, in any order, has those entries. -/
theorem foldlM_insert_perm {xs : List α} {entries : List (κ × ν)}
    (h : (xs.map load).Perm (entries.map .ok)) (hnodup : (entries.map Prod.fst).Nodup) :
    ∃ d, xs.foldlM (fun d x => (load x).map fun e => d.insert e.1 e.2) Dict.empty = .ok d ∧
      ∀ e, e ∈ d.entries ↔ e ∈ entries := by
  have hall : ∀ x ∈ xs, ∃ e, load x = .ok e := by
    intro x hx
    obtain ⟨e, -, he⟩ := List.mem_map.mp (h.mem_iff.mp (List.mem_map_of_mem hx))
    exact ⟨e, he.symm⟩
  refine ⟨_, foldlM_insert hall _, ?_⟩
  have hperm : ((xs.map load).filterMap Except.toOption).Perm entries := by
    have := h.filterMap Except.toOption
    rwa [List.filterMap_map (f := Except.ok), show Except.toOption ∘ Except.ok = some from rfl,
      List.filterMap_some] at this
  have hkeys := (hperm.map Prod.fst).nodup_iff.mpr hnodup
  rintro ⟨k, v⟩
  rw [← Dict.get?_eq_some_iff, Dict.get?_foldl_insert hkeys, Dict.get?_empty, Option.or_none,
    Dict.lookup_eq_some_iff hkeys, hperm.mem_iff]

end Loading

/-! ### Points -/

variable {parse : String → Option Json} {dump : Json → String}

/-- Every point is stored under its own offset. -/
def Keyed (points : Dict UInt64 DelayInstrumentationPoint) : Prop :=
  ∀ e ∈ points.entries, e.1 = e.2.pcOffset

theorem repr_injective {m n : ℕ} (h : m.repr = n.repr) : m = n := by
  have hlists := congrArg String.toList h
  rw [Nat.toList_repr, Nat.toList_repr] at hlists
  rw [← Nat.ofDigitChars_ten_toDigits (n := m), hlists, Nat.ofDigitChars_ten_toDigits]

theorem nodup_pointFields (points : Dict UInt64 DelayInstrumentationPoint) :
    ((pointFields points).map Prod.fst).Nodup := by
  have hperm : ((pointFields points).map Prod.fst).Perm
      (points.keys.map fun pc => pc.toNat.repr) := by
    rw [pointFields, List.map_map, Dict.keys, List.map_map]
    exact (sortOn_perm _ _).map _
  rw [hperm.nodup_iff]
  apply points.keys_nodup.map
  intro pc pc' h
  exact UInt64.toNat_inj.mp (repr_injective h)

theorem map_loadPoint {points : Dict UInt64 DelayInstrumentationPoint} (h : Keyed points) :
    ((assemble (pointFields points)).map fun f =>
      (loadPoint f.1 f.2).map fun p => (p.pcOffset, p)).Perm (points.entries.map .ok) := by
  have hload : ∀ e ∈ points.entries,
      ((loadPoint e.1.toNat.repr (pointJson e.2)).map fun p => (p.pcOffset, p)) = .ok e := by
    intro e he
    rw [h e he, loadPoint_pointJson]
    exact congrArg Except.ok (Prod.ext (h e he).symm rfl)
  refine ((Json.assemble_perm (nodup_pointFields points)).map _).trans ?_
  rw [pointFields, List.map_map]
  refine ((sortOn_perm _ points.entries).map _).trans ?_
  exact .of_eq (List.map_congr_left hload)

theorem get?_congr {κ ν : Type} [DecidableEq κ] {d d' : Dict κ ν}
    (h : ∀ e, e ∈ d.entries ↔ e ∈ d'.entries) (k : κ) : d.get? k = d'.get? k := by
  apply Option.ext
  intro v
  rw [Dict.get?_eq_some_iff, Dict.get?_eq_some_iff, h]

theorem loadPoints_ok {points : Dict UInt64 DelayInstrumentationPoint} (h : Keyed points) :
    ∃ d, loadPoints (assemble (pointFields points)) = .ok d ∧
      ∀ pc, d.get? pc = points.get? pc := by
  obtain ⟨d, hd, hentries⟩ := foldlM_insert_perm (map_loadPoint h) points.nodup
  refine ⟨d, ?_, get?_congr hentries⟩
  rw [← hd, loadPoints]
  congr 1
  funext d f
  cases loadPoint f.1 f.2 <;> rfl

/-! ### Kernels -/

/-- A kernel that is read back, with its points in another order. -/
structure SameKernel (kdc kdc' : KernelDelayInjectConfig) : Prop where
  kernelName : kdc'.kernelName = kdc.kernelName
  kernelChecksum : kdc'.kernelChecksum = kdc.kernelChecksum
  points : ∀ pc, kdc'.instrumentationPoints.get? pc = kdc.instrumentationPoints.get? pc

theorem loadKernel_ok {kdc : KernelDelayInjectConfig} (h : Keyed kdc.instrumentationPoints) :
    ∃ kdc', loadKernel (kernelJson kdc) = .ok kdc' ∧ SameKernel kdc kdc' := by
  obtain ⟨d, hd, hpoints⟩ := loadPoints_ok h
  have hname : valueText (kernelJson kdc) "kernel_name" "" = .ok kdc.kernelName := by
    simp [valueText, kernelJson, assemble, Json.field_setField]
  have hchecksum : valueText (kernelJson kdc) "kernel_checksum" "" = .ok kdc.kernelChecksum := by
    simp [valueText, kernelJson, assemble, Json.field_setField]
  have htimestamp : valueText (kernelJson kdc) "timestamp" "" = .ok kdc.timestamp := by
    simp [valueText, kernelJson, assemble, Json.field_setField]
  have hmember : member (kernelJson kdc) "instrumentation_points" =
      some (.obj (assemble (pointFields kdc.instrumentationPoints))) := by
    rw [kernelJson, member, assemble]
    simp only [List.foldl_cons, List.foldl_nil, Json.field_setField, if_true]
  refine ⟨⟨kdc.kernelName, kdc.kernelChecksum, kdc.timestamp, d⟩, ?_, rfl, rfl, hpoints⟩
  unfold loadKernel
  rw [hname, hchecksum, htimestamp, hmember, Option.map_some, Option.getD_some, items, hd]
  rfl

theorem nodup_kernelFields (kernels : Dict String KernelDelayInjectConfig) :
    ((kernelFields kernels).map Prod.fst).Nodup := by
  have hperm : ((kernelFields kernels).map Prod.fst).Perm kernels.keys := by
    rw [kernelFields, List.map_map]
    exact (sortOn_perm _ _).map _
  exact hperm.nodup_iff.mpr kernels.keys_nodup

def reload (kdc : KernelDelayInjectConfig) : KernelDelayInjectConfig :=
  (loadKernel (kernelJson kdc)).toOption.getD kdc

theorem reload_ok {kdc : KernelDelayInjectConfig} (h : Keyed kdc.instrumentationPoints) :
    loadKernel (kernelJson kdc) = .ok (reload kdc) ∧ SameKernel kdc (reload kdc) := by
  obtain ⟨kdc', hload, hsame⟩ := loadKernel_ok h
  have : reload kdc = kdc' := by
    rw [reload, hload]
    rfl
  exact ⟨this ▸ hload, this ▸ hsame⟩

/-- The kernels of a dump, each as it is read back. -/
theorem loadKernels_ok {kernels : Dict String KernelDelayInjectConfig}
    (h : ∀ e ∈ kernels.entries, Keyed e.2.instrumentationPoints) :
    ∃ d, loadKernels (assemble (kernelFields kernels)) = .ok d ∧
      ∀ e, e ∈ d.entries ↔ e ∈ kernels.entries.map fun e => (e.1, reload e.2) := by
  have hload : ∀ e ∈ kernels.entries,
      (loadKernel (kernelJson e.2)).map (fun kdc => (e.1, kdc)) = .ok (e.1, reload e.2) := by
    intro e he
    rw [(reload_ok (h e he)).1]
    rfl
  have hperm : ((assemble (kernelFields kernels)).map fun f =>
      (loadKernel f.2).map fun kdc => (f.1, kdc)).Perm
        ((kernels.entries.map fun e => (e.1, reload e.2)).map .ok) := by
    refine ((Json.assemble_perm (nodup_kernelFields kernels)).map _).trans ?_
    rw [kernelFields, List.map_map, List.map_map]
    refine ((sortOn_perm _ kernels.entries).map _).trans ?_
    exact .of_eq (List.map_congr_left hload)
  have hnodup : ((kernels.entries.map fun e => (e.1, reload e.2)).map Prod.fst).Nodup := by
    rw [List.map_map]
    exact kernels.nodup
  obtain ⟨d, hd, hentries⟩ := foldlM_insert_perm hperm hnodup
  refine ⟨d, ?_, hentries⟩
  rw [← hd, loadKernels]
  congr 1
  funext d f
  cases loadKernel f.2 <;> rfl

/-! ### The file -/

theorem field_kernels (seed : UInt64) (config : DelayInjectConfig) :
    field (delayConfigJson seed config) "kernels" =
      some (.obj (assemble (kernelFields config.kernels))) := by
  rw [delayConfigJson, assemble]
  simp only [List.foldl_cons, List.foldl_nil, Json.field_setField, if_true]

/-- A dump into a fresh file is the document of the config. -/
theorem mergedFile_delayConfigJson (seed : UInt64) (config : DelayInjectConfig) :
    mergedFile parse (delayConfigJson seed config) none = .obj (delayConfigJson seed config) := by
  have hkernels : addKernels (delayConfigJson seed config) [] =
      assemble (kernelFields config.kernels) := by
    rw [addKernels, own, field_kernels]
    exact Json.assemble_eq Json.assemble_increasing
  have hsame : setField "kernels" (.obj (assemble (kernelFields config.kernels)))
      (delayConfigJson seed config) = delayConfigJson seed config :=
    Json.setField_self Json.assemble_increasing (field_kernels seed config)
  rw [mergedFile, sameRunKernels, hkernels, merged, hsame]

theorem loadDelayConfig_ok {seed : UInt64} {config : DelayInjectConfig} {text : String}
    (h : ∀ e ∈ config.kernels.entries, Keyed e.2.instrumentationPoints)
    (hread : parse text = some (.obj (delayConfigJson seed config))) :
    ∃ replay, loadDelayConfig parse (some text) = .ok replay ∧
      ∀ e, e ∈ replay.kernels.entries ↔ e ∈ config.kernels.entries.map fun e => (e.1, reload e.2) := by
  obtain ⟨d, hd, hentries⟩ := loadKernels_ok h
  have hversion : valueText (.obj (delayConfigJson seed config)) "version" "1.0" =
      .ok config.version := by
    simp [valueText, delayConfigJson, assemble, Json.field_setField]
  have hdelay : valueUInt32 (.obj (delayConfigJson seed config)) "delay_ns" = .ok config.delayNs := by
    simp [valueUInt32, delayConfigJson, assemble, Json.field_setField, uint32_ofInt_toNat]
  have hmember : member (.obj (delayConfigJson seed config)) "kernels" =
      some (.obj (assemble (kernelFields config.kernels))) := field_kernels seed config
  refine ⟨⟨config.version, config.delayNs, d⟩, ?_, hentries⟩
  unfold loadDelayConfig
  dsimp only
  rw [hread]
  dsimp only
  rw [hversion, hdelay, hmember, Option.map_some, Option.getD_some, items, hd]
  rfl

/-! ### What was registered -/

/-- A checksum is the hexadecimal text of a hash. -/
structure Checksum where
  text : String
  hex : ∀ c ∈ text.toList, isHexDigit c = true

/-- A kernel of a run and its points, in the order of their registration. -/
structure Instrumented where
  kernelName : String
  checksum : Checksum
  timestamp : String
  points : List DelayInstrumentationPoint

def Instrumented.config (k : Instrumented) : KernelDelayInjectConfig :=
  k.points.foldl (fun kdc p => registerDelayInstrumentationPoint p kdc)
    ⟨k.kernelName, k.checksum.text, k.timestamp, Dict.empty⟩

/-- Create the config of a kernel and register its points in it. -/
def instrument (config : DelayInjectConfig) (k : Instrumented) : DelayInjectConfig :=
  let key := kernelKey k.kernelName k.checksum.text
  let created := createKernelDelayConfig k.kernelName k.checksum.text k.timestamp config
  { created with
    kernels := created.kernels.upsert key fun kdc =>
      k.points.foldl (fun kdc p => registerDelayInstrumentationPoint p kdc)
        (kdc.getD ⟨k.kernelName, k.checksum.text, k.timestamp, Dict.empty⟩) }

def recorded (version : String) (delayNs : UInt32) (kernels : List Instrumented) :
    DelayInjectConfig :=
  kernels.foldl instrument ⟨version, delayNs, Dict.empty⟩

def Instrumented.key (k : Instrumented) : String := kernelKey k.kernelName k.checksum.text

theorem instrument_kernels (config : DelayInjectConfig) (k : Instrumented) :
    (instrument config k).kernels = config.kernels.insert k.key k.config :=
  Dict.upsert_upsert ..

theorem recorded_kernels (version : String) (delayNs : UInt32) (kernels : List Instrumented) :
    (recorded version delayNs kernels).kernels =
      (kernels.map fun k => (k.key, k.config)).foldl (fun d e => d.insert e.1 e.2) Dict.empty := by
  have h : ∀ config : DelayInjectConfig, (kernels.foldl instrument config).kernels =
      (kernels.map fun k => (k.key, k.config)).foldl (fun d e => d.insert e.1 e.2)
        config.kernels := by
    induction kernels with
    | nil => exact fun _ => rfl
    | cons k kernels ih =>
      intro config
      rw [List.foldl_cons, ih, instrument_kernels]
      rfl
  exact h _

/-- The checksum is what follows the last underscore of a key. -/
theorem checksum_of_key {k k' : Instrumented} (h : k.key = k'.key) :
    k.checksum.text = k'.checksum.text := by
  have hend : ∀ k : Instrumented, k.key.toList.reverse.takeWhile (· ≠ '_') =
      k.checksum.text.toList.reverse := by
    intro k
    have hhex : ∀ c ∈ k.checksum.text.toList.reverse, (decide (c ≠ '_')) = true := by
      intro c hc
      have := k.checksum.hex c (List.mem_reverse.mp hc)
      apply decide_eq_true
      rintro rfl
      cases this
    rw [Instrumented.key, kernelKey, String.toList_append, String.toList_append,
      List.reverse_append, List.takeWhile_append_of_pos hhex]
    simp
  have hlists := hend k
  rw [h, hend k'] at hlists
  exact String.toList_injective (List.reverse_injective hlists.symm)

theorem get?_register (kdc : KernelDelayInjectConfig) (p : DelayInstrumentationPoint) (pc : UInt64) :
    (registerDelayInstrumentationPoint p kdc).instrumentationPoints.get? pc =
      (kdc.instrumentationPoints.get? pc).or (if p.pcOffset = pc then some p else none) := by
  unfold registerDelayInstrumentationPoint
  split_ifs with hknown hpc hpc
  · obtain ⟨old, hold⟩ := (Dict.mem_keys_iff _ _).mp hknown
    rw [hpc] at hold
    rw [hold]
    rfl
  · rw [Option.or_none]
  · have hnone := (Dict.get?_eq_none_iff _ _).mpr hknown
    rw [hpc] at hnone
    rw [Dict.get?_insert, if_pos hpc.symm, hnone]
    rfl
  · rw [Dict.get?_insert, if_neg (Ne.symm hpc), Option.or_none]

/-- Registering points adds those with new offsets, the first of each. -/
theorem get?_config (kdc : KernelDelayInjectConfig) (points : List DelayInstrumentationPoint)
    (pc : UInt64) :
    (points.foldl (fun kdc p => registerDelayInstrumentationPoint p kdc)
        kdc).instrumentationPoints.get? pc =
      (kdc.instrumentationPoints.get? pc).or (points.find? fun p => p.pcOffset = pc) := by
  induction points generalizing kdc with
  | nil => rw [List.foldl_nil, List.find?_nil, Option.or_none]
  | cons p points ih =>
    rw [List.foldl_cons, ih, get?_register, Option.or_assoc, List.find?_cons]
    by_cases h : p.pcOffset = pc
    · simp [h]
    · simp [h]

theorem registered_same (kdc : KernelDelayInjectConfig) (points : List DelayInstrumentationPoint) :
    (points.foldl (fun kdc p => registerDelayInstrumentationPoint p kdc) kdc).kernelName =
        kdc.kernelName ∧
      (points.foldl (fun kdc p => registerDelayInstrumentationPoint p kdc) kdc).kernelChecksum =
        kdc.kernelChecksum := by
  induction points generalizing kdc with
  | nil => exact ⟨rfl, rfl⟩
  | cons p points ih =>
    have hstep : (registerDelayInstrumentationPoint p kdc).kernelName = kdc.kernelName ∧
        (registerDelayInstrumentationPoint p kdc).kernelChecksum = kdc.kernelChecksum := by
      unfold registerDelayInstrumentationPoint
      split_ifs <;> exact ⟨rfl, rfl⟩
    have := ih (registerDelayInstrumentationPoint p kdc)
    exact ⟨this.1.trans hstep.1, this.2.trans hstep.2⟩

theorem keyed_config (k : Instrumented) : Keyed k.config.instrumentationPoints := by
  rintro ⟨pc, p⟩ he
  rw [← Dict.get?_eq_some_iff, Instrumented.config, get?_config, Dict.get?_empty,
    Option.none_or] at he
  have := List.find?_some he
  exact (of_decide_eq_true this).symm

/-! ### Replay -/

theorem mem_recorded {version : String} {delayNs : UInt32} {kernels : List Instrumented}
    (hdistinct : (kernels.map fun k => k.checksum.text).Nodup)
    {e : String × KernelDelayInjectConfig} :
    e ∈ (recorded version delayNs kernels).kernels.entries ↔
      ∃ k ∈ kernels, e = (k.key, k.config) := by
  have hkeys : ((kernels.map fun k => (k.key, k.config)).map Prod.fst).Nodup := by
    rw [List.map_map]
    exact (List.Nodup.of_map (f := fun k => k.checksum.text) hdistinct).map_on
      fun k hk k' hk' h => List.inj_on_of_nodup_map hdistinct hk hk' (checksum_of_key h)
  obtain ⟨key, kdc⟩ := e
  rw [← Dict.get?_eq_some_iff, recorded_kernels, Dict.get?_foldl_insert hkeys, Dict.get?_empty,
    Option.or_none, Dict.lookup_eq_some_iff hkeys, List.mem_map]
  simp only [eq_comm]

theorem find_reloaded {kernels : List Instrumented} {replay : DelayInjectConfig}
    (hdistinct : (kernels.map fun k => k.checksum.text).Nodup)
    (hentries : ∀ e, e ∈ replay.kernels.entries ↔ ∃ k ∈ kernels, e = (k.key, reload k.config))
    {k : Instrumented} (hk : k ∈ kernels) :
    (sortOn Prod.fst replay.kernels.entries).find? (fun e => e.2.kernelChecksum = k.checksum.text) =
      some (k.key, reload k.config) := by
  have hchecksum : ∀ k : Instrumented, (reload k.config).kernelChecksum = k.checksum.text :=
    fun k => (reload_ok (keyed_config k)).2.kernelChecksum.trans (registered_same _ _).2
  cases hfind : (sortOn Prod.fst replay.kernels.entries).find?
      fun e => e.2.kernelChecksum = k.checksum.text with
  | none =>
    rw [List.find?_eq_none] at hfind
    have hmem : (k.key, reload k.config) ∈ sortOn Prod.fst replay.kernels.entries :=
      mem_sortOn.mpr ((hentries _).mpr ⟨k, hk, rfl⟩)
    exact absurd (decide_eq_true (hchecksum k)) (hfind _ hmem)
  | some e =>
    obtain ⟨k', hk', rfl⟩ := (hentries e).mp (mem_sortOn.mp (List.mem_of_find?_eq_some hfind))
    have hfound := List.find?_some hfind
    have hsame : k'.checksum.text = k.checksum.text :=
      (hchecksum k').symm.trans (of_decide_eq_true hfound)
    rw [List.inj_on_of_nodup_map hdistinct hk' hk hsame]

/-- A dump into a fresh file replays exactly: every kernel has at every offset what was
registered there first, and nothing else, and no other checksum has a kernel. -/
theorem replay_dump {version : String} {delayNs : UInt32} {seed : UInt64}
    {kernels : List Instrumented} (hdistinct : (kernels.map fun k => k.checksum.text).Nodup)
    (hread : parse (dump (.obj (delayConfigJson seed (recorded version delayNs kernels)))) =
      some (.obj (delayConfigJson seed (recorded version delayNs kernels)))) :
    ∃ text replay, mergeDelayConfigFile dump parse
        (delayConfigJson seed (recorded version delayNs kernels)) none = some text ∧
      loadDelayConfig parse (some text) = .ok replay ∧
      (∀ k ∈ kernels, ∃ points,
        getReplayInstrumentationPoints replay k.kernelName k.checksum.text = .ok (some points) ∧
        ∀ pc, lookupReplayConfig (some points) pc =
          (k.points.find? fun p => p.pcOffset = pc).map fun p =>
            (p.enabled, p.delayNs, p.clusterSeed)) ∧
      ∀ kernelName checksum, (∀ k ∈ kernels, k.checksum.text ≠ checksum) →
        getReplayInstrumentationPoints replay kernelName checksum = .ok none := by
  have hkeyed : ∀ e ∈ (recorded version delayNs kernels).kernels.entries,
      Keyed e.2.instrumentationPoints := by
    intro e he
    obtain ⟨k, -, rfl⟩ := (mem_recorded hdistinct).mp he
    exact keyed_config k
  obtain ⟨replay, hload, hreplay⟩ := loadDelayConfig_ok hkeyed hread
  have hentries : ∀ e, e ∈ replay.kernels.entries ↔
      ∃ k ∈ kernels, e = (k.key, reload k.config) := by
    intro e
    rw [hreplay, List.mem_map]
    constructor
    · rintro ⟨e', he', rfl⟩
      obtain ⟨k, hk, rfl⟩ := (mem_recorded hdistinct).mp he'
      exact ⟨k, hk, rfl⟩
    · rintro ⟨k, hk, rfl⟩
      exact ⟨(k.key, k.config), (mem_recorded hdistinct).mpr ⟨k, hk, rfl⟩, rfl⟩
  refine ⟨_, replay, ?_, hload, ?_, ?_⟩
  · have hmerged := @mergedFile_delayConfigJson parse seed
      (recorded version delayNs kernels)
    have hfresh : ¬((own (delayConfigJson seed (recorded version delayNs kernels))).isEmpty ∧
        (none : Option String).isSome) := by simp
    rw [mergeDelayConfigFile, if_neg hfresh]
    exact congrArg (fun doc => some (dump doc)) hmerged
  · intro k hk
    obtain ⟨-, hsame⟩ := reload_ok (keyed_config k)
    refine ⟨(reload k.config).instrumentationPoints, ?_, ?_⟩
    · have hname : (reload k.config).kernelName = k.kernelName :=
        hsame.kernelName.trans (registered_same _ _).1
      simp only [getReplayInstrumentationPoints, find_reloaded hdistinct hentries hk, hname, if_true]
    · intro pc
      rw [lookupReplayConfig, Option.bind_some, hsame.points, Instrumented.config, get?_config,
        Dict.get?_empty, Option.none_or]
  · intro kernelName checksum hother
    have hnone : (sortOn Prod.fst replay.kernels.entries).find?
        (fun e => e.2.kernelChecksum = checksum) = none := by
      rw [List.find?_eq_none]
      intro e he heq
      obtain ⟨k, hk, rfl⟩ := (hentries e).mp (mem_sortOn.mp he)
      have hchecksum := (reload_ok (keyed_config k)).2.kernelChecksum.trans (registered_same _ _).2
      exact hother k hk (hchecksum.symm.trans (of_decide_eq_true heq))
    rw [getReplayInstrumentationPoints, hnone]

/-! ### A kernel with two points -/

def sampleInstrumented : Instrumented where
  kernelName := "k"
  checksum := ⟨"1f", by simp [isHexDigit]⟩
  timestamp := "2026-11-04T00:00:00.000"
  points := [⟨16, "BAR.SYNC 0x0 ;", 100, true, 0⟩, ⟨32, "EXIT ;", 100, false, 9⟩]

def sampleDocument : Json := .obj (delayConfigJson 7 (recorded "1.0" 100 [sampleInstrumented]))

def sampleText : String :=
  "\x7b\n  \"delay_ns\": 100,\n  \"kernels\": \x7b\n    \"k_1f\": \x7b\n      \"instrumenta" ++
    "tion_points\": \x7b\n        \"16\": \x7b\n          \"delay\": 100,\n          \"on\": " ++
    "true,\n          \"pc\": 16,\n          \"sass\": \"BAR.SYNC 0x0 ;\"\n        \x7d,\n        " ++
    "\"32\": \x7b\n          \"cluster_seed\": 9,\n          \"delay\": 100,\n          \"on" ++
    "\": false,\n          \"pc\": 32,\n          \"sass\": \"EXIT ;\"\n        \x7d\n      " ++
    "\x7d,\n      \"kernel_checksum\": \"1f\",\n      \"kernel_name\": \"k\",\n      \"timest" ++
    "amp\": \"2026-11-04T00:00:00.000\"\n    \x7d\n  \x7d,\n  \"seed\": 7,\n  \"version\": \"" ++
    "1.0\"\n\x7d"

theorem replay_dump_small :
    ∃ text replay, mergeDelayConfigFile (fun _ => sampleText)
        (fun text => if text = sampleText then some sampleDocument else none)
        (delayConfigJson 7 (recorded "1.0" 100 [sampleInstrumented])) none = some text ∧
      loadDelayConfig (fun text => if text = sampleText then some sampleDocument else none)
        (some text) = .ok replay ∧
      ∃ points, getReplayInstrumentationPoints replay "k" "1f" = .ok (some points) ∧
        lookupReplayConfig (some points) 32 = some (false, 100, 9) := by
  obtain ⟨text, replay, htext, hload, hkernels, -⟩ :=
    @replay_dump (fun text => if text = sampleText then some sampleDocument else none)
      (fun _ => sampleText) "1.0" 100 7 [sampleInstrumented] (by simp) (if_pos rfl)
  obtain ⟨points, hpoints, hlookup⟩ := hkernels sampleInstrumented (by simp)
  exact ⟨text, replay, htext, hload, points, hpoints, hlookup 32⟩

end CuTracer.Delay
