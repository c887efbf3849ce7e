import CuTracer.PlanRuntime.Records

/-! Every run of a context and its kernels keeps the owners of the controls and the records
of the traces in order. A trace that is finished as complete has a record for every packet,
and a packet for every visit that its configurations selected. -/

namespace CuTracer.PlanRuntime

open Plan

variable {t : Tables} {plan : CanonicalPlan} {dump : Json → String}

/-! ### Every run -/

/-- What holds of a context and its kernels at any time. -/
structure World.Inv (t : Tables) (plan : CanonicalPlan) (dump : Json → String) (w : World) :
    Prop where
  owned : Owned t w.state w.nextId w.flights
  tallied : Tallied t plan dump w.state w.flights w.written
  /-- As long as the plan is not disabled, a recorded launch has its kernel. -/
  present : w.disabled = false → ∀ id ∈ w.state.launches.keys, ∃ f ∈ w.flights, f.id = id

theorem inv_nil (t : Tables) (plan : CanonicalPlan) (dump : Json → String) :
    World.Inv t plan dump {} :=
  ⟨owned_nil t, ⟨fun _ _ h => (by cases h), List.nodup_nil, fun _ h => by cases h⟩,
    fun _ _ h => by cases h⟩

variable {w w' : World}

theorem World.Inv.keeps (h : w.Inv t plan dump) {state' : Context} {disabled : Bool}
    (hstate : w.state.Keeps state' ∧ w.state.Quiet state')
    (hdisabled : disabled = false → w.disabled = false) :
    World.Inv t plan dump { w with state := state', disabled } := by
  refine ⟨h.owned.keeps hstate.1, h.tallied.quiet hstate.2, fun hrun id hid => ?_⟩
  obtain ⟨launch', hget⟩ := (Dict.mem_keys_iff _ _).mp hid
  obtain ⟨launch, hget, -⟩ := hstate.1.launches id launch' hget
  exact h.present (hdisabled hrun) id (Dict.mem_keys_of_get? hget)

/-- A failure after anything that keeps the owners. -/
theorem World.Inv.fail {n : ℕ} {state' : Context} (howned : Owned t state' n w.flights)
    (htallied : Tallied t plan dump state' w.flights w.written) (what : String) :
    World.Inv t plan dump (World.fail { w with nextId := n } state' what) :=
  ⟨howned.keeps (disable_keeps what).1, htallied.quiet (disable_keeps what).2,
    fun h => by cases h⟩

theorem World.Inv.launch (h : w.Inv t plan dump) (ht : t.configs.length ≤ kPlanConfigsMax) (root : ℕ)
    (identity : Identity) (sink : Except String Unit)
    (hid : ∀ id, identity.launchId = .ok id → w.nextId ≤ id) :
    (w.launch t plan root identity sink).Inv t plan dump := by
  unfold World.launch
  cases hlaunch : w.state.launch t plan root identity sink with
  | mk result state =>
  have hnext : w.nextId ≤ identity.next w.nextId := by
    unfold Identity.next
    split
    next id hok => exact (hid id hok).trans (Nat.le_succ id)
    · exact le_rfl
  rcases launch_cases ht h.owned.bounds hlaunch with ⟨what, rfl, rfl⟩ | ⟨id, prepared, slot, htakes,
    hcases⟩
  · exact World.Inv.fail (h.owned.mono hnext) h.tallied what
  have hnextId : identity.next w.nextId = id + 1 := by rw [Identity.next, htakes.id]
  have hfresh := hid id htakes.id
  have hlaunches : (w.state.withControl id prepared.selected slot).launches = w.state.launches := by
    cases slot <;> rfl
  rcases hcases with ⟨what, rfl, rfl⟩ | ⟨launch, hbegins, rfl, hresult⟩
  · rw [hnextId]
    refine World.Inv.fail (h.owned.withControl (fun s hs => (htakes.free s hs).2) hfresh) ?_ what
    exact h.tallied.quiet fun i l hget => ⟨l, hlaunches ▸ hget, .refl l⟩
  · obtain ⟨howned, hstart⟩ := h.owned.takes htakes hfresh hbegins
    have htallied : Tallied t plan dump { w.state.withControl id prepared.selected slot with
        launches := w.state.launches.insert id launch } w.flights w.written := by
      refine h.tallied.record rfl htakes.fresh hbegins (fun p hp hpid => ?_) rfl
      obtain ⟨f, hf, hp⟩ := h.tallied.pushed p hp
      have := h.owned.fresh f hf
      rw [h.owned.packets hf hp] at hpid
      omega
    cases result with
    | error what =>
      rw [hnextId]
      exact World.Inv.fail howned htallied what
    | ok r =>
      obtain ⟨document, slot'⟩ := r
      obtain rfl : slot' = slot := hresult _ rfl
      dsimp only
      rw [hnextId, htakes.id]
      refine ⟨hstart, htallied.mono fun f hf => ⟨f, List.mem_append_left _ hf, fun _ hp => hp⟩,
        fun hrun i hi => ?_⟩
      rcases (Dict.mem_keys_insert _ _ _ _).mp hi with rfl | hi
      · exact ⟨_, List.mem_append_right _ (List.mem_singleton_self _), rfl⟩
      · obtain ⟨f, hf, heq⟩ := h.present hrun i hi
        exact ⟨f, List.mem_append_left _ hf, heq⟩

theorem World.Inv.step (h : w.Inv t plan dump) (ht : t.configs.length ≤ kPlanConfigsMax)
    (hstep : WorldStep t plan dump w w') : w'.Inv t plan dump := by
  cases hstep with
  | prepare root f hrun =>
    have hkeeps : w.state.Keeps (w.state.prepare t plan root f).2.1 ∧
        w.state.Quiet (w.state.prepare t plan root f).2.1 := prepare_keeps root f
    unfold World.prepare
    split
    next what s hs =>
      rw [hs] at hkeeps
      exact World.Inv.fail (h.owned.keeps hkeeps.1) (h.tallied.quiet hkeeps.2) what
    next ok s hs =>
      rw [hs] at hkeeps
      exact h.keeps hkeeps fun h => h
  | forgetModule module => exact h.keeps (forgetModule_keeps module) fun h => h
  | launch root identity sink hrun hid => exact h.launch ht root identity sink hid
  | @run before after f hw hended slot hslot control visits pushed hdevice =>
    obtain ⟨howned, htallied, hpresent⟩ := h
    rw [hw] at howned htallied hpresent
    refine ⟨howned.run hended hslot hdevice, ?_, fun hrun id hid => ?_⟩
    · have hquiet : Tallied t plan dump { w.state with slots := Function.update w.state.slots slot control }
          (before ++ f :: after) w.written := htallied.quiet fun i l hget => ⟨l, hget, .refl l⟩
      refine hquiet.mono fun g hg => ?_
      rcases mem_middle (f := { f with control, visits, pushed }) hg with rfl | ⟨hg, -⟩
      · exact ⟨{ g with control, visits, pushed }, by simp, fun p hp => hdevice.pushed p hp⟩
      · exact ⟨g, hg, fun _ hp => hp⟩
    · obtain ⟨g, hg, heq⟩ := hpresent hrun id hid
      rcases mem_middle (f := { f with control, visits, pushed }) hg with rfl | ⟨hg, -⟩
      · exact ⟨{ g with control, visits, pushed }, by simp, heq⟩
      · exact ⟨g, hg, heq⟩
  | @exit before after f hw hdone =>
    obtain ⟨howned, htallied, hpresent⟩ := h
    rw [hw] at howned htallied hpresent
    refine ⟨howned.exit hdone, htallied.mono fun g hg => ?_, fun hrun id hid => ?_⟩
    · rcases mem_middle (f := { f with ended := true }) hg with rfl | ⟨hg, -⟩
      · exact ⟨{ g with ended := true }, by simp, fun _ hp => hp⟩
      · exact ⟨g, hg, fun _ hp => hp⟩
    · obtain ⟨g, hg, heq⟩ := hpresent hrun id hid
      rcases mem_middle (f := { f with ended := true }) hg with rfl | ⟨hg, -⟩
      · exact ⟨{ g with ended := true }, by simp, heq⟩
      · exact ⟨g, hg, heq⟩
  | deviceComplete id completed drained hended =>
    have hquiet := deviceComplete_quiet w.state id completed drained
    refine ⟨h.owned.deviceComplete drained hended, h.tallied.quiet hquiet, fun hrun i hi => ?_⟩
    obtain ⟨launch', hget⟩ := (Dict.mem_keys_iff _ _).mp hi
    obtain ⟨launch, hget, -⟩ := hquiet i launch' hget
    exact h.present hrun i (Dict.mem_keys_of_get? hget)
  | consume f hf p hp accepted hrun =>
    have hconsume := (Prod.mk.eta (p := w.state.consume t plan dump p accepted)).symm
    have hkeeps := consume_keeps hconsume
    refine ⟨h.owned.keeps hkeeps, h.tallied.consume hf hp hconsume, fun hrun i hi => ?_⟩
    obtain ⟨launch', hget⟩ := (Dict.mem_keys_iff _ _).mp hi
    obtain ⟨launch, hget, -⟩ := hkeeps.launches i launch' hget
    exact h.present hrun i (Dict.mem_keys_of_get? hget)
  | finishTrace id sink => exact h.keeps (finishTrace_keeps w.disabled id sink) fun h => h
  | disable reason => exact World.Inv.fail h.owned h.tallied reason

theorem inv_of_reachable (ht : t.configs.length ≤ kPlanConfigsMax)
    (h : Relation.ReflTransGen (WorldStep t plan dump) {} w) : w.Inv t plan dump := by
  induction h with
  | refl => exact inv_nil t plan dump
  | tail _ hstep ih => exact ih.step ht hstep

/-! ### A run of one kernel -/

/-- What the first kernel of a context may do next. -/
inductive Turn where
  | enter (v : Visit)
  | advance
  | exit
  | deviceComplete (drained : Bool)
  | consume (accepted : Bool)

/-- The first kernel takes its turn if it can. -/
def World.turn (t : Tables) (plan : CanonicalPlan) (dump : Json → String) (w : World) (turn : Turn) :
    World :=
  match w.flights with
  | [] => w
  | f :: after =>
    match turn with
    | .enter v =>
      match f.slot with
      | none => w
      | some slot =>
        if f.ended = false ∧ v.pointId < t.points.length ∧ v.wordCount ≤ planCaptureWords then
          { w with
            state := { w.state with
              slots := Function.update w.state.slots slot (w.state.slots slot) }
            flights :=
              { f with control := w.state.slots slot, visits := f.visits ++ [{ visit := v }] }
                :: after }
        else w
    | .advance =>
      match f.slot, f.visits with
      | some slot, r :: visits =>
        if f.ended = false ∧ r.config < t.configs.length then
          let step := r.step t (w.state.slots slot)
          { w with
            state := { w.state with slots := Function.update w.state.slots slot step.1 }
            flights := { f with
              control := step.1, visits := step.2.1 :: visits
              pushed := f.pushed ++ step.2.2.toList } :: after }
        else w
      | _, _ => w
    | .exit =>
      if ∀ r ∈ f.visits, r.done t = true then { w with flights := { f with ended := true } :: after }
      else w
    | .deviceComplete drained =>
      if ∀ g ∈ w.flights, g.id = f.id → g.ended = true then
        { w with state := w.state.deviceComplete f.id true drained }
      else w
    | .consume accepted =>
      match f.pushed with
      | [] => w
      | p :: _ => if w.disabled = false then w.consume t plan dump p accepted else w

theorem turn_reachable (w : World) (turn : Turn) :
    Relation.ReflTransGen (WorldStep t plan dump) w (w.turn t plan dump turn) := by
  unfold World.turn
  split
  · exact .refl
  next f after hw =>
  have hf : f ∈ w.flights := hw ▸ List.mem_cons_self
  have hfirst : w.flights = [] ++ f :: after := hw
  cases turn with
  | enter v =>
    dsimp only
    split
    · exact .refl
    next slot hslot =>
    split_ifs with hcan
    · exact .single (.run f hfirst hcan.1 hslot (.enter v hcan.2))
    · exact .refl
  | advance =>
    dsimp only
    split
    next slot r visits hslot hvisits =>
      split_ifs with hcan
      · refine .single (.run f hfirst hcan.1 hslot ?_)
        rw [hvisits]
        exact @DeviceStep.advance t (w.state.slots slot) [] visits f.pushed r hcan.2
      · exact .refl
    · exact .refl
  | exit =>
    dsimp only
    split_ifs with hdone
    · exact .single (.exit f hfirst hdone)
    · exact .refl
  | deviceComplete drained =>
    dsimp only
    split_ifs with hended
    · exact .single (.deviceComplete f.id true drained fun _ => hended)
    · exact .refl
  | consume accepted =>
    dsimp only
    split
    · exact .refl
    next p pushed hpushed =>
    split_ifs with hrun
    · exact .single (.consume f hf p (hpushed ▸ List.mem_cons_self) accepted hrun)
    · exact .refl

theorem turns_reachable (w : World) (turns : List Turn) :
    Relation.ReflTransGen (WorldStep t plan dump) w (turns.foldl (World.turn t plan dump) w) := by
  induction turns generalizing w with
  | nil => exact .refl
  | cons turn turns ih => exact (turn_reachable w turn).trans (ih _)

def sampleIdentity : Identity where
  document := .null
  launchId := .ok 0
  kernelOrdinal := .ok 0
  grid := .ok ⟨1, 1, 1⟩
  block := .ok ⟨32, 1, 1⟩
  launch := .ok .null
  streamHandle := .ok 0
  graphNodeHandle := .ok 0

/-- The only warp of the launch at the entry. -/
def sampleVisit : Visit :=
  ⟨0, 1, toLex (0, toLex (0, 0)), 0, BitVec.allOnes 32, BitVec.allOnes 32, fun _ _ => 5#32⟩

/-- The small plan's function was launched, and its kernel took some turns. -/
def sampleWorld (turns : List Turn) : World :=
  turns.foldl (World.turn sampleTables samplePlan fun _ => "")
    ((World.prepare sampleTables samplePlan {} 0 sampleFunction).launch sampleTables samplePlan 0
      sampleIdentity (.ok ()))

theorem sample_reachable (turns : List Turn) :
    Relation.ReflTransGen (WorldStep sampleTables samplePlan fun _ => "") {}
      (sampleWorld turns) := by
  refine .trans (.tail (.single (.prepare 0 sampleFunction rfl))
    (.launch 0 sampleIdentity (.ok ()) ?_ fun id hid => ?_)) (turns_reachable _ turns)
  · decide +kernel
  · have hnext : (World.prepare sampleTables samplePlan {} 0 sampleFunction).nextId = 0 := by
      decide +kernel
    rw [hnext]
    exact Nat.zero_le id

/-- The visit runs to its end, and the kernel ends. -/
def sampleTurns : List Turn :=
  .enter sampleVisit :: List.replicate 6 .advance ++ [.exit]

/-! ### Controls -/

/-- The control of a kernel that runs is its own: no launch takes its slot, no other kernel
that runs has it, and it is as the kernel left it. -/
theorem running_owns_control (ht : build plan = .ok t)
    (h : Relation.ReflTransGen (WorldStep t plan dump) {} w) {f : Flight} (hf : f ∈ w.flights)
    (hrun : f.ended = false) {slot : ℕ} (hslot : f.slot = some slot) :
    freeSlot w.state ≠ some slot ∧ w.state.slots slot = f.control ∧ f.control.launchId = f.id ∧
      ∀ g ∈ w.flights, g.ended = false → g.slot = some slot → g = f := by
  have howned := (inv_of_reachable (length_build ht) h).owned
  have hown := howned.running f hf hrun slot hslot
  refine ⟨fun hfree => ?_, howned.own f hf slot hslot hown, (howned.sound f hf).1,
    fun g hg hrun' hslot' => ?_⟩
  · have := (freeSlot_ok hfree).2
    rw [hown.1] at this
    cases this
  · have hown' := howned.running g hg hrun' slot hslot'
    exact List.inj_on_of_nodup_map howned.nodup hg hf (hown'.2.symm.trans hown.2)

/-- A visit runs, and its kernel owns the first slot. -/
theorem running_owns_control_sample : ∃ f ∈ (sampleWorld [.enter sampleVisit, .advance]).flights,
    freeSlot (sampleWorld [.enter sampleVisit, .advance]).state ≠ some 0 ∧
      (sampleWorld [.enter sampleVisit, .advance]).state.slots 0 = f.control := by
  have hsome : (sampleWorld [.enter sampleVisit, .advance]).flights.any
      (fun f => !f.ended && f.slot = some 0) = true := by decide +kernel
  obtain ⟨f, hf, hfit⟩ := List.any_eq_true.mp hsome
  simp only [Bool.and_eq_true, Bool.not_eq_true', decide_eq_true_iff] at hfit
  obtain ⟨hfree, hcontrol, -⟩ := running_owns_control build_sample
    (sample_reachable [.enter sampleVisit, .advance]) hf hfit.1 hfit.2
  exact ⟨f, hf, hfree, hcontrol⟩

/-! ### Budgets -/

theorem configAt_eq {c : ℕ} {config : RuntimeConfig} (hc : t.configs[c]? = some config) :
    configAt t c = deviceConfig config.source := by
  rw [configAt, hc]
  rfl

theorem tracePackets_subset (howned : Owned t w.state w.nextId w.flights)
    (htallied : Tallied t plan dump w.state w.flights w.written) {f : Flight} (hf : f ∈ w.flights)
    (c : ℕ) : (tracePackets f.id c w.written).Subperm (packetsOf c f.pushed) := by
  have hnodup : (tracePackets f.id c w.written).Nodup :=
    (List.Nodup.of_map _ htallied.nodup).filter _
  refine List.subperm_of_subset hnodup fun p hp => ?_
  simp only [tracePackets, List.mem_filter, decide_eq_true_iff] at hp
  obtain ⟨hp, hid, hc⟩ := hp
  obtain ⟨g, hg, hpushed⟩ := htallied.pushed p hp
  obtain rfl : g = f := List.inj_on_of_nodup_map howned.nodup hg hf
    ((howned.packets hg hpushed).symm.trans hid)
  exact List.mem_filter.mpr ⟨hpushed, by simpa using hc⟩

/-- Whatever order visits, launches and packets come in, no budget of a configuration is
exceeded, on the device and in the trace. -/
theorem budgets_hold (ht : build plan = .ok t)
    (h : Relation.ReflTransGen (WorldStep t plan dump) {} w) {f : Flight} (hf : f ∈ w.flights)
    {c : ℕ} {config : RuntimeConfig} (hc : t.configs[c]? = some config) :
    (packetsOf c f.pushed).length ≤ config.source.budget.maxRecords ∧
      (packetsOf c f.pushed).length * packetBytes ≤ config.source.budget.maxBytes ∧
      ((packetsOf c f.pushed).map (·.sequence)).Nodup ∧
      (tracePackets f.id c w.written).length ≤ (packetsOf c f.pushed).length ∧
      ∀ launch, w.state.launches.get? f.id = some launch → c ∈ launch.counts.keys →
        ((tracePackets f.id c w.written).map (recordSize t plan dump launch config.source)).sum ≤
          config.source.budget.maxBytes := by
  have hinv := inv_of_reachable (length_build ht) h
  have hacc := (hinv.owned.sound f hf).2.accounted c
  obtain ⟨hrecords, hbytes⟩ := hacc.budget
  rw [configAt_eq hc] at hrecords hbytes
  refine ⟨hrecords, hbytes, hacc.nodup.of_append_left,
    (tracePackets_subset hinv.owned hinv.tallied hf c).length_le, fun launch hget hmem => ?_⟩
  obtain ⟨k, hk⟩ := (Dict.mem_keys_iff _ _).mp hmem
  have htallies := hinv.tallied.launches f.id launch hget
  rw [← htallies.bytes c k config hk hc]
  exact (htallies.budget c k config hk hc).2

/-- The kernel pushed one packet of the two that it would have room for. -/
theorem budgets_hold_sample : ∃ f ∈ (sampleWorld sampleTurns).flights,
    (packetsOf 0 f.pushed).length = 1 ∧
      (packetsOf 0 f.pushed).length * packetBytes ≤ sampleConfig.budget.maxBytes := by
  have hsome : (sampleWorld sampleTurns).flights.any
      (fun f => (packetsOf 0 f.pushed).length = 1) = true := by decide +kernel
  obtain ⟨f, hf, hfit⟩ := List.any_eq_true.mp hsome
  have hconfig : sampleTables.configs[0]? = some ⟨0, sampleConfig⟩ := rfl
  obtain ⟨-, hbytes, -⟩ := budgets_hold build_sample (sample_reachable sampleTurns) hf hconfig
  exact ⟨f, hf, by simpa using hfit, hbytes⟩

/-! ### Complete traces -/

/-- Does the configuration select the visit, wherever it is enabled? -/
def Visit.chosen (t : Tables) (v : Visit) (c : ℕ) : Bool := v.selected t (enable Mask.clear c) c

theorem selected_eq_chosen {mask : Mask} {c : ℕ} (h : enabled mask c = true) (v : Visit) :
    v.selected t mask c = v.chosen t c := by
  rw [Visit.chosen, Visit.selected, Visit.selected, h, enabled_enable]
  simp

theorem complete_counts {launch : Launch} {disabled : Bool} (h : launch.complete disabled = true) :
    disabled = false ∧ launch.countersAvailable = true ∧ ∀ c k, launch.counts.get? c = some k →
      k.error = "" ∧ (k.selected = true → k.ok launch.countersAvailable = true) := by
  simp only [Launch.complete, Bool.and_eq_true, Bool.not_eq_true', List.all_eq_true] at h
  obtain ⟨⟨⟨⟨hrun, -⟩, -⟩, havailable⟩, hall⟩ := h
  refine ⟨hrun, havailable, fun c k hk => ?_⟩
  have hmem : k ∈ launch.counts.values :=
    List.mem_map_of_mem (f := Prod.snd) ((Dict.get?_eq_some_iff _ _ _).mp hk)
  have hnot := hall k hmem
  simp only [Counts.incomplete, Bool.or_eq_false_iff, decide_eq_false_iff_not, not_not,
    Bool.and_eq_false_iff, Bool.not_eq_false'] at hnot
  refine ⟨hnot.1, fun hsel => ?_⟩
  rcases hnot.2 with hsel' | hok
  · rw [hsel] at hsel'
    cases hsel'
  · exact hok

/-- A trace that is finished as complete has the record of every packet that its kernel
pushed, the packets are those of the visits that the configuration selected, and as many of
these were at the entry as the geometry of the launch says. -/
theorem complete_lossless (ht : build plan = .ok t)
    (h : Relation.ReflTransGen (WorldStep t plan dump) {} w) {id : ℕ} {sink : Except String Unit}
    {metadata : Json}
    (hfinish : (w.state.finishTrace t plan w.disabled id sink).1 = .described true metadata sink) :
    ∃ launch f, w.state.launches.get? id = some launch ∧ f ∈ w.flights ∧ f.id = id ∧
      ∀ c k, launch.counts.get? c = some k → k.selected = true → f.ended = true ∧
        (tracePackets id c w.written).Perm (packetsOf c f.pushed) ∧
        ((tracePackets id c w.written).map PlanObservation.shape).Perm
          ((f.visits.filter fun r => r.visit.chosen t c).map fun r => r.visit.packet t id c 0) ∧
        ∃ config, t.configs[c]? = some config ∧
          launch.identity.expectedEntries config.source =
            .ok (f.visits.countP fun r => r.marked t c && r.visit.chosen t c) := by
  obtain ⟨howned, htallied, hpresent⟩ := inv_of_reachable (length_build ht) h
  unfold Context.finishTrace at hfinish
  split at hfinish
  · cases hfinish
  next launch hlaunch =>
  obtain ⟨hrun, havailable, hcounts⟩ := complete_counts (Finished.described.inj hfinish).1
  obtain ⟨f, hf, rfl⟩ := hpresent hrun id (Dict.mem_keys_of_get? hlaunch)
  -- the counters were read, so the kernel has no slot any more
  have hslot : ¬launch.slot < kPlanLaunchSlots := by
    intro hlt
    rw [(howned.control f.id launch hlaunch hlt).2] at havailable
    cases havailable
  refine ⟨launch, f, hlaunch, hf, rfl, fun c k hk hsel => ?_⟩
  obtain ⟨herror, hok⟩ := hcounts c k hk
  obtain ⟨hended, hdevice⟩ := (howned.counted f hf launch hlaunch c k hk hsel).resolve_left hslot
  obtain ⟨hfid, hsound⟩ := howned.sound f hf
  have hsettled := hsound.settled (howned.returned f hf hended) c
  have henabled : enabled f.control.enabled c = true := by
    rw [howned.mask f hf launch hlaunch c, hk, Option.any_some, hsel]
  simp only [Counts.ok, Bool.and_eq_true, decide_eq_true_iff, hdevice] at hok
  obtain ⟨⟨⟨⟨⟨⟨-, hentries⟩, hdropped⟩, -⟩, hreceived⟩, hwritten⟩, -⟩ := hok hsel
  have htallies := htallied.launches f.id launch hlaunch
  have hlength : (packetsOf c f.pushed).length ≤ (tracePackets f.id c w.written).length := by
    rw [hsettled.emitted, hreceived, hwritten, htallies.count c k hk]
  have hperm := (tracePackets_subset howned htallied hf c).perm_of_length_le hlength
  refine ⟨hended, hperm, ?_, ?_⟩
  · refine (hperm.map PlanObservation.shape).trans ?_
    have hshown := hsettled.shown hdropped
    rw [hfid] at hshown
    simpa only [selected_eq_chosen henabled] using hshown
  · obtain ⟨config, hconfig, hexpected⟩ := howned.expected f.id launch hlaunch c k hk hsel
    refine ⟨config, hconfig, ?_⟩
    rw [hexpected, ← hentries, hsettled.entries]
    simp only [selected_eq_chosen henabled]

def Finished.complete : Finished → Bool
  | .missing => false
  | .described complete _ _ => complete

theorem described_of_complete {state : Context} {disabled : Bool} {id : ℕ}
    {sink : Except String Unit}
    (h : (state.finishTrace t plan disabled id sink).1.complete = true) :
    ∃ metadata, (state.finishTrace t plan disabled id sink).1 = .described true metadata sink := by
  unfold Context.finishTrace at h ⊢
  split
  next hnone =>
    rw [hnone] at h
    cases h
  next launch hlaunch =>
    rw [hlaunch] at h
    have hcomplete : launch.complete disabled = true := h
    exact ⟨_, by rw [hcomplete]⟩

/-- The kernel ended, its packet was written, and its trace is complete. -/
theorem complete_lossless_sample : ∃ (launch : Launch) (f : Flight), f.id = 0 ∧
    ∀ c k, launch.counts.get? c = some k → k.selected = true → f.ended = true ∧
      (tracePackets 0 c (sampleWorld (sampleTurns ++
        [.deviceComplete true, .consume true])).written).Perm (packetsOf c f.pushed) := by
  have hcomplete : ((sampleWorld (sampleTurns ++ [.deviceComplete true,
      .consume true])).state.finishTrace sampleTables samplePlan (sampleWorld (sampleTurns ++
        [.deviceComplete true, .consume true])).disabled 0 (.ok ())).1.complete = true := by
    decide +kernel
  have hreachable := sample_reachable (sampleTurns ++ [.deviceComplete true, .consume true])
  generalize sampleWorld (sampleTurns ++ [.deviceComplete true, .consume true]) = w
    at hcomplete hreachable ⊢
  obtain ⟨metadata, hfinish⟩ := described_of_complete hcomplete
  obtain ⟨launch, f, -, -, hid, hall⟩ := complete_lossless build_sample hreachable hfinish
  refine ⟨launch, f, hid, fun c k hk hsel => ?_⟩
  obtain ⟨hended, hperm, -⟩ := hall c k hk hsel
  exact ⟨hended, hperm⟩

end CuTracer.PlanRuntime
