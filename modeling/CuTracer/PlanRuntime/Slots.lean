import CuTracer.PlanRuntime.Prepare

/-! Slots of a context. A control is in use from the launch that took its slot until that
launch is known to be complete and drained; until then the slot stays taken and its
control keeps the number of the launch, whatever other launches, failures, completions
and ends of traces come between. -/

namespace CuTracer.PlanRuntime

open Plan

variable {t : Tables} {plan : CanonicalPlan} {state state' : Context}

/-! ### What a launch does -/

/-- No configuration is selected where no word of the mask is set. -/
theorem enabled_of_any {mask : Mask} (h : mask.any = false) {c : ℕ} (hc : c < kPlanConfigsMax) :
    enabled mask c = false := by
  rw [Mask.any, List.any_eq_false] at h
  have hword := h (c / 64) (List.mem_range.mpr (by rw [kPlanMaskWords, kPlanConfigsMax] at *; omega))
  simp only [decide_eq_true_iff, not_not] at hword
  rw [enabled_eq, hword, BitVec.getLsbD_zero]

/-- The counts of a launch before anything was received. -/
structure Preparing.Fresh (t : Tables) (identity : Identity) (p : Preparing) : Prop where
  selected : ∀ c, enabled p.selected c = (p.counts.get? c).any (·.selected)
  bounded : ∀ c, enabled p.selected c = true → c < kPlanConfigsMax
  zero : ∀ c k, p.counts.get? c = some k → k.received = 0 ∧ k.written = 0 ∧ k.jsonBytes = 0
  expected : ∀ c k, p.counts.get? c = some k → k.selected = true → ∃ config,
    t.configs[c]? = some config ∧ identity.expectedEntries config.source = .ok k.expectedEntries

variable {identity : Identity}

theorem prepareCounts_ok {bound : Bound} {ordinal index : ℕ} {config : Config} {counts : Counts}
    (h : prepareCounts bound identity ordinal index config = .ok counts) :
    (counts.received = 0 ∧ counts.written = 0 ∧ counts.jsonBytes = 0) ∧
      (counts.selected = true → identity.expectedEntries config = .ok counts.expectedEntries) := by
  unfold prepareCounts at h
  split at h
  · cases h
    exact ⟨⟨rfl, rfl, rfl⟩, fun hsel => by cases hsel⟩
  · split at h
    · obtain ⟨entries, hentries, h⟩ := bind_ok h
      cases h
      exact ⟨⟨rfl, rfl, rfl⟩, fun _ => hentries⟩
    · cases h
      exact ⟨⟨rfl, rfl, rfl⟩, fun hsel => by cases hsel⟩

theorem fresh_nil (t : Tables) (identity : Identity) : Preparing.Fresh t identity {} :=
  ⟨fun c => by simp, fun c h => by simp at h, fun _ _ h => (by cases h), fun _ _ h => by cases h⟩

theorem Preparing.Fresh.prepareConfig {p p' : Preparing} {bound : Bound} {ordinal index : ℕ}
    (h : p.Fresh t identity) (ht : t.configs.length ≤ kPlanConfigsMax)
    (hnew : index ∉ p.counts.keys) (hok : prepareConfig t bound identity ordinal p index = .ok p') :
    p'.Fresh t identity ∧ ∀ c ∈ p'.counts.keys, c = index ∨ c ∈ p.counts.keys := by
  unfold PlanRuntime.prepareConfig at hok
  split at hok
  · cases hok
    exact ⟨h, fun c hc => .inr hc⟩
  next config hconfig =>
  obtain ⟨counts, hcounts, hok⟩ := bind_ok hok
  cases hok
  have hnone : p.counts.get? index = none := (Dict.get?_eq_none_iff _ _).mpr hnew
  refine ⟨⟨fun c => ?_, fun c hc => ?_, fun c k hc => ?_, fun c k hc hsel => ?_⟩,
    fun c hc => (Dict.mem_keys_insert _ _ _ _).mp hc⟩
  · rw [Dict.get?_insert]
    split_ifs with hsel heq heq
    · rw [enabled_enable, heq]
      simp [hsel]
    · rw [enabled_enable, h.selected c]
      simp [heq]
    · rw [heq, h.selected, hnone]
      simpa using hsel
    · exact h.selected c
  · by_cases heq : c = index
    · rw [heq]
      exact ((List.getElem?_eq_some_iff.mp hconfig).1).trans_le ht
    · simp only at hc
      split_ifs at hc
      · rw [enabled_enable] at hc
        simp only [heq, decide_false, Bool.false_or] at hc
        exact h.bounded c hc
      · exact h.bounded c hc
  · rw [Dict.get?_insert] at hc
    split_ifs at hc
    · cases hc
      exact (prepareCounts_ok hcounts).1
    · exact h.zero c k hc
  · rw [Dict.get?_insert] at hc
    split_ifs at hc with heq
    · cases hc
      exact ⟨config, heq ▸ hconfig, (prepareCounts_ok hcounts).2 hsel⟩
    · exact h.expected c k hc hsel

theorem fresh_foldlM {bound : Bound} {ordinal : ℕ} {is : List ℕ} {p p' : Preparing}
    (h : p.Fresh t identity) (ht : t.configs.length ≤ kPlanConfigsMax) (hnodup : is.Nodup)
    (hnew : ∀ i ∈ is, i ∉ p.counts.keys)
    (hok : is.foldlM (prepareConfig t bound identity ordinal) p = .ok p') :
    p'.Fresh t identity := by
  induction is generalizing p with
  | nil =>
    cases hok
    exact h
  | cons i is ih =>
    rw [List.foldlM_cons] at hok
    obtain ⟨q, hq, hok⟩ := bind_ok hok
    obtain ⟨hi, hnodup⟩ := List.nodup_cons.mp hnodup
    obtain ⟨hfresh, hkeys⟩ := h.prepareConfig ht (hnew i List.mem_cons_self) hq
    refine ih hfresh hnodup (fun j hj hmem => ?_) hok
    rcases hkeys j hmem with rfl | hmem
    · exact hi hj
    · exact hnew j (List.mem_cons_of_mem i hj) hmem

/-- The configurations of every bound function are different. -/
def Context.Bounds (state : Context) : Prop :=
  ∀ root b, state.bound.get? root = some b → b.configs.Nodup

theorem checkLaunch_ok (ht : t.configs.length ≤ kPlanConfigsMax) (hbound : state.Bounds)
    {root id : ℕ} {prepared : Preparing}
    (h : state.checkLaunch t root identity = .ok (id, prepared)) :
    identity.launchId = .ok id ∧ prepared.Fresh t identity := by
  unfold Context.checkLaunch at h
  split at h
  · cases h
  next b hb =>
  split_ifs at h
  obtain ⟨id', hid, h⟩ := bind_ok h
  obtain ⟨ordinal, -, h⟩ := bind_ok h
  obtain ⟨p, hp, h⟩ := bind_ok h
  cases h
  exact ⟨hid, fresh_foldlM (fresh_nil t identity) ht (hbound root b hb)
    (fun _ _ hmem => by cases hmem) hp⟩

/-- The context once the control of a launch is in its slot. -/
def Context.withControl (state : Context) (id : ℕ) (selected : Mask) : Option ℕ → Context
  | none => state
  | some slot => state.control slot id selected

theorem freeSlot_ok {slot : ℕ} (h : freeSlot state = some slot) :
    slot < kPlanLaunchSlots ∧ state.occupied slot = false := by
  unfold freeSlot at h
  have hfree := List.find?_some h
  exact ⟨List.mem_range.mp (List.mem_of_find?_eq_some h), by simpa using hfree⟩

theorem takeSlot_ok {id : ℕ} {selected : Mask} {slot : Option ℕ}
    (h : state.takeSlot id selected = .ok (slot, state')) :
    state' = state.withControl id selected slot ∧
      (∀ s, slot = some s → s < kPlanLaunchSlots ∧ state.occupied s = false) ∧
      (slot = none → selected.any = false) := by
  unfold Context.takeSlot at h
  split_ifs at h with hany
  · split at h
    · cases h
    next s hs =>
    cases h
    refine ⟨rfl, fun s' hs' => ?_, fun hnone => by cases hnone⟩
    cases hs'
    exact freeSlot_ok hs
  · cases h
    exact ⟨rfl, fun s hs => (by cases hs), fun _ => by simpa using hany⟩

/-- A launch that got as far as its control: the slot was free, and the control enables what
is selected. -/
structure Takes (t : Tables) (state : Context) (identity : Identity) (id : ℕ)
    (prepared : Preparing) (slot : Option ℕ) : Prop where
  id : identity.launchId = .ok id
  fresh : prepared.Fresh t identity
  free : ∀ s, slot = some s → s < kPlanLaunchSlots ∧ state.occupied s = false
  none : slot = none → ∀ c, enabled prepared.selected c = false

structure Launch.Begins (identity : Identity) (prepared : Preparing) (slot : Option ℕ)
    (launch : Launch) : Prop where
  identity : launch.identity = identity
  slot : launch.slot = slot.getD kPlanLaunchSlots
  counts : launch.counts = prepared.counts
  records : launch.records = []
  available : launch.countersAvailable = false

/-- A launch changes nothing, or takes a control, or is recorded as well. -/
theorem launch_cases (ht : t.configs.length ≤ kPlanConfigsMax) (hbound : state.Bounds) {root : ℕ}
    {sink : Except String Unit} {result : Except String (Json × Option ℕ)}
    (h : state.launch t plan root identity sink = (result, state')) :
    (∃ what, result = .error what ∧ state' = state) ∨
    ∃ id prepared slot, Takes t state identity id prepared slot ∧
      ((∃ what, result = .error what ∧ state' = state.withControl id prepared.selected slot) ∨
        ∃ launch, launch.Begins identity prepared slot ∧
          state' = { state.withControl id prepared.selected slot with
            launches := state.launches.insert id launch } ∧
          ∀ r, result = .ok r → r.2 = slot) := by
  unfold Context.launch at h
  split at h
  case h_1 what _ =>
    cases h
    exact .inl ⟨what, rfl, rfl⟩
  next id prepared hcheck =>
  obtain ⟨hid, hfresh⟩ := checkLaunch_ok ht hbound hcheck
  split at h
  case h_1 what _ =>
    cases h
    exact .inl ⟨what, rfl, rfl⟩
  next slot state₁ htake =>
  obtain ⟨rfl, hfree, hnone⟩ := takeSlot_ok htake
  have htakes : Takes t state identity id prepared slot := by
    refine ⟨hid, hfresh, hfree, fun hslot c => ?_⟩
    by_contra hc
    rw [Bool.not_eq_false] at hc
    rw [enabled_of_any (hnone hslot) (hfresh.bounded c hc)] at hc
    cases hc
  refine .inr ⟨id, prepared, slot, htakes, ?_⟩
  have hlaunches : (state.withControl id prepared.selected slot).launches = state.launches := by
    cases slot <;> rfl
  split at h
  case h_1 what _ =>
    cases h
    exact .inl ⟨what, rfl, rfl⟩
  next launch _ =>
  dsimp only at h
  split_ifs at h
  · cases h
    exact .inl ⟨_, rfl, rfl⟩
  refine .inr ⟨{
    identity
    applied := applied plan identity id launch prepared.configurations
    slot := slot.getD kPlanLaunchSlots
    counts := prepared.counts }, ⟨rfl, rfl, rfl, rfl, rfl⟩, ?_⟩
  rw [hlaunches] at h
  split at h
  · cases h
    exact ⟨rfl, fun r hr => by cases hr⟩
  · cases h
    exact ⟨rfl, fun r hr => by cases hr⟩
  · cases h
    exact ⟨rfl, fun r hr => by cases hr⟩
  · cases h
    exact ⟨rfl, fun r hr => Except.ok.inj hr ▸ rfl⟩

/-! ### What leaves the controls alone -/

/-- A launch later, with its slot and what the device counted as they were. -/
structure Launch.Keeps (launch launch' : Launch) : Prop where
  identity : launch'.identity = launch.identity
  slot : launch'.slot = launch.slot
  available : launch'.countersAvailable = true → launch.slot < kPlanLaunchSlots →
    launch.countersAvailable = true
  selected : ∀ c, (launch'.counts.get? c).any (·.selected) = (launch.counts.get? c).any (·.selected)
  counts : ∀ c k', launch'.counts.get? c = some k' → ∃ k, launch.counts.get? c = some k ∧
    k'.selected = k.selected ∧ k'.expectedEntries = k.expectedEntries ∧ k'.device = k.device

/-- A launch later that received nothing. -/
structure Launch.Quiet (launch launch' : Launch) : Prop where
  identity : launch'.identity = launch.identity
  records : launch'.records = launch.records
  counts : ∀ c k', launch'.counts.get? c = some k' → ∃ k, launch.counts.get? c = some k ∧
    k'.written = k.written ∧ k'.jsonBytes = k.jsonBytes ∧
    (k'.error = "" → k.error = "" ∧ k'.received = k.received)

theorem Launch.Keeps.refl (launch : Launch) : launch.Keeps launch :=
  ⟨rfl, rfl, fun h _ => h, fun _ => rfl, fun _ k hk => ⟨k, hk, rfl, rfl, rfl⟩⟩

theorem Launch.Quiet.refl (launch : Launch) : launch.Quiet launch :=
  ⟨rfl, rfl, fun _ k hk => ⟨k, hk, rfl, rfl, fun herror => ⟨herror, rfl⟩⟩⟩

/-- No control changes hands, and no launch is new. -/
structure Context.Keeps (state state' : Context) : Prop where
  slots : state'.slots = state.slots
  occupied : state'.occupied = state.occupied
  bounds : state.Bounds → state'.Bounds
  launches : ∀ id launch', state'.launches.get? id = some launch' →
    ∃ launch, state.launches.get? id = some launch ∧ launch.Keeps launch'

/-- No launch receives anything. -/
def Context.Quiet (state state' : Context) : Prop :=
  ∀ id launch', state'.launches.get? id = some launch' →
    ∃ launch, state.launches.get? id = some launch ∧ launch.Quiet launch'

/-- Launches that are there already, or some of them, keep everything. -/
theorem keeps_of_launches (hslots : state'.slots = state.slots)
    (hoccupied : state'.occupied = state.occupied) (hbounds : state.Bounds → state'.Bounds)
    (h : ∀ id launch, state'.launches.get? id = some launch → state.launches.get? id = some launch) :
    state.Keeps state' ∧ state.Quiet state' :=
  ⟨⟨hslots, hoccupied, hbounds, fun id launch hget => ⟨launch, h id launch hget, .refl launch⟩⟩,
    fun id launch hget => ⟨launch, h id launch hget, .refl launch⟩⟩

theorem disable_keeps (reason : String) :
    state.Keeps (state.disable reason) ∧ state.Quiet (state.disable reason) := by
  have hcounts : ∀ (d : Dict ℕ Counts) c k', (d.mapValues fun _ k => k.fail reason).get? c = some k' →
      ∃ k, d.get? c = some k ∧ k' = k.fail reason := by
    intro d c k' hk
    rw [Dict.get?_mapValues, Option.map_eq_some_iff] at hk
    obtain ⟨k, hk, rfl⟩ := hk
    exact ⟨k, hk, rfl⟩
  constructor
  · refine ⟨rfl, rfl, id, fun id launch' hget => ?_⟩
    rw [Context.disable, Dict.get?_mapValues, Option.map_eq_some_iff] at hget
    obtain ⟨launch, hget, rfl⟩ := hget
    refine ⟨launch, hget, rfl, rfl, fun h _ => h, fun c => ?_, fun c k' hk => ?_⟩
    · rw [Dict.get?_mapValues]
      cases launch.counts.get? c <;> rfl
    · obtain ⟨k, hk', rfl⟩ := hcounts launch.counts c k' hk
      exact ⟨k, hk', rfl, rfl, rfl⟩
  · intro id launch' hget
    rw [Context.disable, Dict.get?_mapValues, Option.map_eq_some_iff] at hget
    obtain ⟨launch, hget, rfl⟩ := hget
    refine ⟨launch, hget, rfl, rfl, fun c k' hk => ?_⟩
    obtain ⟨k, hk', rfl⟩ := hcounts launch.counts c k' hk
    refine ⟨k, hk', rfl, rfl, fun herror => ⟨?_, rfl⟩⟩
    simp only [Counts.fail] at herror
    split_ifs at herror with hnil
    · exact hnil
    · exact herror

theorem inject_rest (bound : Bound) (items : List Item) (s : Context × List Call) :
    (inject t bound items s).2.1.slots = s.1.slots ∧
      (inject t bound items s).2.1.occupied = s.1.occupied ∧
      (inject t bound items s).2.1.launches = s.1.launches ∧
      (inject t bound items s).2.1.bound = s.1.bound := by
  induction items generalizing s with
  | nil => exact ⟨rfl, rfl, rfl, rfl⟩
  | cons item items ih =>
    have hitem : (injectPoint t bound s item).2.1.slots = s.1.slots ∧
        (injectPoint t bound s item).2.1.occupied = s.1.occupied ∧
        (injectPoint t bound s item).2.1.launches = s.1.launches ∧
        (injectPoint t bound s item).2.1.bound = s.1.bound := by
      unfold injectPoint
      split
      · exact ⟨rfl, rfl, rfl, rfl⟩
      · split_ifs <;> exact ⟨rfl, rfl, rfl, rfl⟩
    rw [inject]
    split
    next what s' hs' => rwa [hs'] at hitem
    next s' hs' =>
      rw [hs'] at hitem
      obtain ⟨hslots, hoccupied, hlaunches, hbound⟩ := ih s'
      exact ⟨hslots.trans hitem.1, hoccupied.trans hitem.2.1, hlaunches.trans hitem.2.2.1,
        hbound.trans hitem.2.2.2⟩

theorem nodup_configsOf (t : Tables) (kernel : ℕ) : (configsOf t kernel).Nodup := by
  rw [configsOf]
  have hsub : ((t.configs.zipIdx.filter fun c => c.1.kernel = kernel).map Prod.snd).Sublist
      (t.configs.zipIdx.map Prod.snd) := List.filter_sublist.map _
  refine hsub.nodup ?_
  rw [List.zipIdx_map_snd]
  exact List.nodup_range'

theorem prepare_keeps (root : ℕ) (f : Requested) :
    state.Keeps (state.prepare t plan root f).2.1 ∧ state.Quiet (state.prepare t plan root f).2.1 := by
  have hsame : state.Keeps state ∧ state.Quiet state :=
    keeps_of_launches rfl rfl id fun _ _ h => h
  unfold Context.prepare
  split_ifs
  · exact hsame
  · exact hsame
  · exact hsame
  split
  · exact hsame
  · exact keeps_of_launches rfl rfl id fun _ _ h => h
  split
  · exact hsame
  next b items hcheck =>
  obtain ⟨hslots, hoccupied, hlaunches, hbound⟩ := inject_rest (t := t) b items (state, [])
  split
  next what s hs =>
    rw [hs] at hslots hoccupied hlaunches hbound
    dsimp only at hbound
    refine keeps_of_launches hslots hoccupied (fun h root b hb => h root b ?_) fun id launch hget => ?_
    · rwa [← hbound]
    · rwa [hlaunches] at hget
  next s hs =>
    rw [hs] at hslots hoccupied hlaunches hbound
    dsimp only at hbound
    refine keeps_of_launches hslots hoccupied (fun h r b' hb => ?_) fun id launch hget => ?_
    · simp only [Dict.get?_insert, hbound] at hb
      split_ifs at hb
      · rw [← Option.some.inj hb, checkFunction_configs hcheck]
        exact nodup_configsOf t _
      · exact h r b' hb
    · rw [← hlaunches]
      exact hget

theorem forgetModule_keeps (module : Option ℕ) :
    state.Keeps (state.forgetModule module) ∧ state.Quiet (state.forgetModule module) :=
  keeps_of_launches rfl rfl (fun h root b hb => h root b (Dict.get?_filter.mp hb).1) fun _ _ h => h

theorem finishTrace_keeps (disabled : Bool) (id : ℕ) (sink : Except String Unit) :
    state.Keeps (state.finishTrace t plan disabled id sink).2 ∧
      state.Quiet (state.finishTrace t plan disabled id sink).2 := by
  unfold Context.finishTrace
  split
  · exact keeps_of_launches rfl rfl (fun h => h) fun _ _ h => h
  · cases sink with
    | error => exact keeps_of_launches rfl rfl (fun h => h) fun _ _ h => h
    | ok => exact keeps_of_launches rfl rfl (fun h => h) fun _ _ h => (Dict.get?_filter.mp h).1

/-! ### Packets -/

def Consumed.written (accepted : Bool) : Consumed → Bool
  | .recorded _ => accepted
  | _ => false

def recordSize (t : Tables) (plan : CanonicalPlan) (dump : Json → String) (launch : Launch)
    (config : Config) (packet : PlanObservation) : ℕ :=
  match t.points[packet.pointId]? with
  | none => 0
  | some point => (dump (recordJson plan (launch.identity.launch.toOption.getD .null) config point
      packet)).utf8ByteSize + 1

/-- What a packet that passed the checks does to its launch, with a record of some size. -/
structure Recorded (packet : PlanObservation) (launch : Launch) (counts : Counts) (budget : Budget)
    (size : ℕ) (written : Bool) (k : Counts) (records : List (ℕ × ℕ)) : Prop where
  selected : k.selected = counts.selected
  expected : k.expectedEntries = counts.expectedEntries
  device : k.device = counts.device
  kept : ∀ r ∈ launch.records, r ∈ records
  outcome : written = false ∧ k.error ≠ "" ∧ k.written = counts.written ∧
      k.jsonBytes = counts.jsonBytes ∨
    written = true ∧ k.error = counts.error ∧ k.received = counts.received + 1 ∧
      (k.written = counts.written + 1 ∧ k.written ≤ budget.maxRecords) ∧
      (k.jsonBytes = counts.jsonBytes + size ∧ k.jsonBytes ≤ budget.maxBytes) ∧
      (packet.configIndex, packet.sequence) ∉ launch.records ∧
      (packet.configIndex, packet.sequence) ∈ records

theorem record_cases {dump : Json → String} {launch launch' : Launch} {key : Json} {counts : Counts}
    {config : Config} {point : RuntimePoint} {packet : PlanObservation} {accepted : Bool}
    {consumed : Consumed}
    (h : launch.record plan dump key counts config point packet accepted = (consumed, launch')) :
    ∃ k records, Recorded packet launch counts config.budget
        ((dump (recordJson plan key config point packet)).utf8ByteSize + 1)
        (consumed.written accepted) k records ∧
      launch' = { launch with records, counts := launch.counts.insert packet.configIndex k } := by
  unfold Launch.record at h
  dsimp only at h
  split_ifs at h with hfull hdup hword hbudget haccepted
  · cases h
    refine ⟨_, _, ?_, rfl⟩
    exact ⟨rfl, rfl, rfl, fun _ hr => hr, .inl ⟨rfl, by simp, rfl, rfl⟩⟩
  · cases h
    refine ⟨_, _, ?_, rfl⟩
    exact ⟨rfl, rfl, rfl, fun _ hr => hr, .inl ⟨rfl, by simp, rfl, rfl⟩⟩
  · cases h
    refine ⟨_, _, ?_, rfl⟩
    exact ⟨rfl, rfl, rfl, fun _ hr => List.mem_append_left _ hr, .inl ⟨rfl, by simp, rfl, rfl⟩⟩
  · cases h
    refine ⟨_, _, ?_, rfl⟩
    exact ⟨rfl, rfl, rfl, fun _ hr => List.mem_append_left _ hr, .inl ⟨rfl, by simp, rfl, rfl⟩⟩
  · cases h
    refine ⟨_, _, ?_, rfl⟩
    exact ⟨rfl, rfl, rfl, fun _ hr => List.mem_append_left _ hr,
      .inl ⟨haccepted, by simp, rfl, rfl⟩⟩
  · cases h
    push Not at hbudget
    have hnew : (packet.configIndex, packet.sequence) ∉ launch.records := by simpa using hdup
    refine ⟨_, _, ?_, rfl⟩
    refine ⟨rfl, rfl, rfl, fun _ hr => List.mem_append_left _ hr,
      .inr ⟨by simpa [Consumed.written] using haccepted, rfl, rfl, ⟨rfl, hbudget.1⟩, ⟨rfl, ?_⟩, hnew,
        List.mem_append_right _ (List.mem_singleton_self _)⟩⟩
    dsimp only
    omega

/-- A packet changes nothing, or its launch as `Recorded` says. -/
theorem consume_cases {dump : Json → String} {packet : PlanObservation} {accepted : Bool}
    {consumed : Consumed}
    (h : state.consume t plan dump packet accepted = (consumed, state')) :
    state' = state ∧ consumed.written accepted = false ∨
    ∃ launch counts k records config, state.launches.get? packet.kernelLaunchId = some launch ∧
      launch.counts.get? packet.configIndex = some counts ∧
      t.configs[packet.configIndex]? = some config ∧
      Recorded packet launch counts config.source.budget
        (recordSize t plan dump launch config.source packet) (consumed.written accepted) k records ∧
      state' = { state with
        launches := state.launches.insert packet.kernelLaunchId
          { launch with records, counts := launch.counts.insert packet.configIndex k } } := by
  unfold Context.consume at h
  split at h
  case h_2 =>
    cases h
    exact .inl ⟨rfl, rfl⟩
  next launch point config hlaunch hpoint hconfig =>
  split_ifs at h
  · cases h
    exact .inl ⟨rfl, rfl⟩
  split at h
  · cases h
    exact .inl ⟨rfl, rfl⟩
  · cases h
    exact .inl ⟨rfl, rfl⟩
  split at h
  · cases h
    exact .inl ⟨rfl, rfl⟩
  split at h
  · cases h
    exact .inl ⟨rfl, rfl⟩
  next counts hcounts =>
  split_ifs at h
  · cases h
    exact .inl ⟨rfl, rfl⟩
  cases hrecord : launch.record plan dump (launch.identity.launch.toOption.getD .null) counts
      config.source point packet accepted with
  | mk consumed' launch' =>
    rw [hrecord] at h
    cases h
    obtain ⟨k, records, hrecorded, rfl⟩ := record_cases hrecord
    refine .inr ⟨launch, counts, k, records, config, hlaunch, hcounts, hconfig, ?_, rfl⟩
    rw [recordSize, hpoint]
    exact hrecorded

theorem consume_keeps {dump : Json → String} {packet : PlanObservation} {accepted : Bool}
    {consumed : Consumed} (h : state.consume t plan dump packet accepted = (consumed, state')) :
    state.Keeps state' := by
  rcases consume_cases h with ⟨rfl, -⟩ | ⟨launch, counts, k, records, config, hlaunch, hcounts,
    -, hrecorded, rfl⟩
  · exact (keeps_of_launches rfl rfl id fun _ _ h => h).1
  · refine ⟨rfl, rfl, fun h => h, fun id launch' hget => ?_⟩
    rw [Dict.get?_insert] at hget
    split_ifs at hget with hid
    · cases hget
      refine ⟨launch, hid ▸ hlaunch, rfl, rfl, fun h _ => h, fun c => ?_, fun c k' hk => ?_⟩
      · rw [Dict.get?_insert]
        split_ifs with hc
        · rw [hc, hcounts, Option.any_some, Option.any_some, hrecorded.selected]
        · rfl
      · rw [Dict.get?_insert] at hk
        split_ifs at hk with hc
        · cases hk
          exact ⟨counts, hc ▸ hcounts, hrecorded.selected, hrecorded.expected, hrecorded.device⟩
        · exact ⟨k', hk, rfl, rfl, rfl⟩
    · exact ⟨launch', hget, .refl launch'⟩

/-! ### Completions -/

/-- A completion only takes note, or reads the counters of a slot and frees it. -/
theorem deviceComplete_cases (state : Context) (id : ℕ) (completed drained : Bool) :
    state.Keeps (state.deviceComplete id completed drained) ∨
    completed = true ∧ ∃ launch, state.launches.get? id = some launch ∧
      launch.slot < kPlanLaunchSlots ∧ ∃ launch' : Launch,
        launch'.identity = launch.identity ∧ launch'.slot = kPlanLaunchSlots ∧
        launch'.counts = (launch.readCounters (state.slots launch.slot)).counts ∧
        state.deviceComplete id completed drained = { state with
          launches := state.launches.insert id launch'
          occupied := Function.update state.occupied launch.slot false } := by
  have hkeeps : ∀ launch launch' : Launch, state.launches.get? id = some launch →
      launch.Keeps launch' →
      state.Keeps { state with launches := state.launches.insert id launch' } := by
    intro launch launch' hlaunch hl
    refine ⟨rfl, rfl, fun h => h, fun i l hget => ?_⟩
    rw [Dict.get?_insert] at hget
    split_ifs at hget with hi
    · exact ⟨launch, hi ▸ hlaunch, Option.some.inj hget ▸ hl⟩
    · exact ⟨l, hget, .refl l⟩
  unfold Context.deviceComplete
  split
  · exact .inl (keeps_of_launches rfl rfl (fun h => h) fun _ _ h => h).1
  next launch hlaunch =>
  dsimp only
  split_ifs with hdone hslot
  · rw [Bool.and_eq_true] at hdone
    refine .inr ⟨hdone.1, launch, hlaunch, hslot, _, ?_, ?_, ?_, rfl⟩ <;> rfl
  · exact .inl (hkeeps launch _ hlaunch ⟨rfl, rfl, fun _ hlt => absurd hlt hslot, fun _ => rfl,
      fun c k hk => ⟨k, hk, rfl, rfl, rfl⟩⟩)
  · exact .inl (hkeeps launch _ hlaunch ⟨rfl, rfl, fun h _ => h, fun _ => rfl,
      fun c k hk => ⟨k, hk, rfl, rfl, rfl⟩⟩)

/-- A completion receives nothing. -/
theorem deviceComplete_quiet (state : Context) (id : ℕ) (completed drained : Bool) :
    state.Quiet (state.deviceComplete id completed drained) := by
  have hinsert : ∀ (launch launch' : Launch) (state' : Context),
      state.launches.get? id = some launch →
      state'.launches = state.launches.insert id launch' → launch.Quiet launch' →
      state.Quiet state' := by
    intro launch launch' state' hlaunch hlaunches hquiet i l' hget
    rw [hlaunches, Dict.get?_insert] at hget
    split_ifs at hget with hi
    · cases hget
      exact ⟨launch, hi ▸ hlaunch, hquiet⟩
    · exact ⟨l', hget, .refl l'⟩
  unfold Context.deviceComplete
  split
  · exact fun i l hl => ⟨l, hl, .refl l⟩
  next launch hlaunch =>
  dsimp only
  split_ifs
  · refine hinsert launch _ _ hlaunch rfl ⟨rfl, rfl, fun c k' hk => ?_⟩
    simp only [Launch.readCounters, Dict.get?_mapValues, Option.map_eq_some_iff] at hk
    obtain ⟨k, hk, rfl⟩ := hk
    exact ⟨k, hk, rfl, rfl, fun herror => ⟨herror, rfl⟩⟩
  · exact hinsert launch _ _ hlaunch rfl
      ⟨rfl, rfl, fun c k hk => ⟨k, hk, rfl, rfl, fun herror => ⟨herror, rfl⟩⟩⟩
  · exact hinsert launch _ _ hlaunch rfl
      ⟨rfl, rfl, fun c k hk => ⟨k, hk, rfl, rfl, fun herror => ⟨herror, rfl⟩⟩⟩

end CuTracer.PlanRuntime
