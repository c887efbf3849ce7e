import CuTracer.PlanRuntime.Slots

/-! A context and its kernels, in any order of their steps: functions are prepared and
forgotten, kernels are launched, run and end, packets come late, twice, in any order or
never, completions are noted, traces are finished, and the plan fails at any time. A kernel
that runs owns the control of its slot, and the counters that a completion reads are those
of the kernel that ended; what was written for a launch is what its records say. -/

namespace CuTracer.PlanRuntime

open Plan

/-! ### Kernels of a context -/

/-- A kernel that was launched with the control of a slot, or with none; the control is kept
as the kernel last left it. -/
structure Flight where
  id : ℕ
  slot : Option ℕ
  control : PlanLaunchControl
  visits : List Running
  pushed : List PlanObservation
  ended : Bool

/-- A context, its kernels, and the packets that were written to a trace. -/
structure World where
  state : Context := {}
  disabled : Bool := false
  nextId : ℕ := 0
  flights : List Flight := []
  written : List PlanObservation := []

/-- What a call throws disables the plan; `apply_runtime_plan`. -/
def World.fail (w : World) (state : Context) (what : String) : World :=
  { w with state := state.disable what, disabled := true }

section

variable (t : Tables) (plan : CanonicalPlan)

def World.prepare (w : World) (root : ℕ) (f : Requested) : World :=
  match w.state.prepare t plan root f with
  | (.error what, s) => w.fail s.1 what
  | (.ok _, s) => { w with state := s.1 }

def Identity.next (identity : Identity) (n : ℕ) : ℕ :=
  match identity.launchId with
  | .ok id => id + 1
  | .error _ => n

/-- A kernel with the control that its launch took. -/
def Context.flight (state : Context) (slot : Option ℕ) (id : ℕ) : Flight :=
  ⟨id, slot, (slot.map state.slots).getD { launchId := id }, [], [], false⟩

/-- A kernel runs with the plan only if its launch was recorded and nothing was thrown. -/
def World.launch (w : World) (root : ℕ) (identity : Identity) (sink : Except String Unit) : World :=
  match w.state.launch t plan root identity sink with
  | (.error what, state) => { w with nextId := identity.next w.nextId }.fail state what
  | (.ok (_, slot), state) => { w with
      state
      nextId := identity.next w.nextId
      flights := w.flights ++ identity.launchId.toOption.toList.map (state.flight slot) }

def World.consume (dump : Json → String) (w : World) (p : PlanObservation) (accepted : Bool) :
    World :=
  { w with
    state := (w.state.consume t plan dump p accepted).2
    written :=
      if (w.state.consume t plan dump p accepted).1.written accepted then w.written ++ [p]
      else w.written }

/-- One step of a context or of one of its kernels. Numbers of launches are never used twice,
and a kernel that is known to be complete has ended. -/
inductive WorldStep (dump : Json → String) : World → World → Prop where
  | prepare {w} (root : ℕ) (f : Requested) (h : w.disabled = false) :
      WorldStep dump w (w.prepare t plan root f)
  | forgetModule {w} (module : Option ℕ) :
      WorldStep dump w { w with state := w.state.forgetModule module }
  | launch {w} (root : ℕ) (identity : Identity) (sink : Except String Unit)
      (h : w.disabled = false) (hid : ∀ id, identity.launchId = .ok id → w.nextId ≤ id) :
      WorldStep dump w (w.launch t plan root identity sink)
  | run {w before after} (f : Flight) (hw : w.flights = before ++ f :: after)
      (hended : f.ended = false) {slot : ℕ} (hslot : f.slot = some slot) {control visits pushed}
      (h : DeviceStep t (w.state.slots slot, f.visits, f.pushed) (control, visits, pushed)) :
      WorldStep dump w { w with
        state := { w.state with slots := Function.update w.state.slots slot control }
        flights := before ++ { f with control, visits, pushed } :: after }
  | exit {w before after} (f : Flight) (hw : w.flights = before ++ f :: after)
      (h : ∀ r ∈ f.visits, r.done t = true) :
      WorldStep dump w { w with flights := before ++ { f with ended := true } :: after }
  | deviceComplete {w} (id : ℕ) (completed drained : Bool)
      (h : completed = true → ∀ f ∈ w.flights, f.id = id → f.ended = true) :
      WorldStep dump w { w with state := w.state.deviceComplete id completed drained }
  | consume {w} (f : Flight) (hf : f ∈ w.flights) (p : PlanObservation) (hp : p ∈ f.pushed)
      (accepted : Bool) (h : w.disabled = false) :
      WorldStep dump w (w.consume t plan dump p accepted)
  | finishTrace {w} (id : ℕ) (sink : Except String Unit) :
      WorldStep dump w { w with state := (w.state.finishTrace t plan w.disabled id sink).2 }
  | disable {w} (reason : String) : WorldStep dump w (w.fail w.state reason)

end

variable {t : Tables} {plan : CanonicalPlan} {state state' : Context} {flights : List Flight}
  {nextId : ℕ}

/-! ### Who owns a control -/

def Context.Held (state : Context) (id slot : ℕ) : Prop :=
  state.occupied slot = true ∧ (state.slots slot).launchId = id

/-- Controls, launches and kernels agree. -/
structure Owned (t : Tables) (state : Context) (nextId : ℕ) (flights : List Flight) : Prop where
  bounds : state.Bounds
  nodup : (flights.map Flight.id).Nodup
  fresh : ∀ f ∈ flights, f.id < nextId
  keys : ∀ id ∈ state.launches.keys, id < nextId
  running : ∀ f ∈ flights, f.ended = false → ∀ s, f.slot = some s → state.Held f.id s
  own : ∀ f ∈ flights, ∀ s, f.slot = some s → state.Held f.id s → state.slots s = f.control
  sound : ∀ f ∈ flights, f.control.launchId = f.id ∧ OnDevice t f.control f.visits f.pushed
  returned : ∀ f ∈ flights, f.ended = true → ∀ r ∈ f.visits, r.done t = true
  control : ∀ id launch, state.launches.get? id = some launch → launch.slot < kPlanLaunchSlots →
    state.Held id launch.slot ∧ launch.countersAvailable = false
  slot : ∀ f ∈ flights, ∀ launch, state.launches.get? f.id = some launch →
    launch.slot < kPlanLaunchSlots → f.slot = some launch.slot
  mask : ∀ f ∈ flights, ∀ launch, state.launches.get? f.id = some launch → ∀ c,
    enabled f.control.enabled c = (launch.counts.get? c).any (·.selected)
  /-- The counters of a launch that was complete are those that the kernel ended with. -/
  counted : ∀ f ∈ flights, ∀ launch, state.launches.get? f.id = some launch → ∀ c k,
    launch.counts.get? c = some k → k.selected = true →
      launch.slot < kPlanLaunchSlots ∨ f.ended = true ∧ k.device = f.control.counters c
  expected : ∀ id launch, state.launches.get? id = some launch → ∀ c k,
    launch.counts.get? c = some k → k.selected = true → ∃ config, t.configs[c]? = some config ∧
      launch.identity.expectedEntries config.source = .ok k.expectedEntries

theorem owned_nil (t : Tables) : Owned t {} 0 [] := by
  constructor
  · intro root b hb
    cases hb
  · exact List.nodup_nil
  · intro f hf
    cases hf
  · intro id hid
    cases hid
  · intro f hf
    cases hf
  · intro f hf
    cases hf
  · intro f hf
    cases hf
  · intro f hf
    cases hf
  · intro id launch hget
    cases hget
  · intro f hf
    cases hf
  · intro f hf
    cases hf
  · intro f hf
    cases hf
  · intro id launch hget
    cases hget

variable (h : Owned t state nextId flights)

include h in
theorem Owned.mono {n : ℕ} (hn : nextId ≤ n) : Owned t state n flights :=
  { h with
    fresh := fun f hf => (h.fresh f hf).trans_le hn
    keys := fun id hid => (h.keys id hid).trans_le hn }

include h in
/-- What leaves the controls alone leaves their owners alone. -/
theorem Owned.keeps (hkeeps : state.Keeps state') : Owned t state' nextId flights := by
  have hheld : ∀ id s, state'.Held id s ↔ state.Held id s := by
    intro id s
    rw [Context.Held, Context.Held, hkeeps.slots, hkeeps.occupied]
  refine ⟨hkeeps.bounds h.bounds, h.nodup, h.fresh, fun id hid => ?_, fun f hf hended s hs => ?_,
    fun f hf s hs hs' => ?_, h.sound, h.returned, fun id launch' hget hslot => ?_,
    fun f hf launch' hget hslot => ?_, fun f hf launch' hget c => ?_,
    fun f hf launch' hget c k' hk hsel => ?_, fun id launch' hget c k' hk hsel => ?_⟩
  · obtain ⟨launch', hget⟩ := (Dict.mem_keys_iff _ _).mp hid
    obtain ⟨launch, hget, -⟩ := hkeeps.launches id launch' hget
    exact h.keys id (Dict.mem_keys_of_get? hget)
  · exact (hheld f.id s).mpr (h.running f hf hended s hs)
  · rw [hkeeps.slots]
    exact h.own f hf s hs ((hheld f.id s).mp hs')
  · obtain ⟨launch, hget, hl⟩ := hkeeps.launches id launch' hget
    rw [hl.slot] at hslot ⊢
    obtain ⟨hown, havailable⟩ := h.control id launch hget hslot
    refine ⟨(hheld id launch.slot).mpr hown, ?_⟩
    by_contra htrue
    rw [hl.available ((Bool.not_eq_false _).mp htrue) hslot] at havailable
    cases havailable
  · obtain ⟨launch, hget, hl⟩ := hkeeps.launches f.id launch' hget
    rw [hl.slot] at hslot ⊢
    exact h.slot f hf launch hget hslot
  · obtain ⟨launch, hget, hl⟩ := hkeeps.launches f.id launch' hget
    rw [hl.selected c]
    exact h.mask f hf launch hget c
  · obtain ⟨launch, hget, hl⟩ := hkeeps.launches f.id launch' hget
    obtain ⟨k, hk, hselected, -, hdevice⟩ := hl.counts c k' hk
    rw [hl.slot, hdevice]
    exact h.counted f hf launch hget c k hk (hselected ▸ hsel)
  · obtain ⟨launch, hget, hl⟩ := hkeeps.launches id launch' hget
    obtain ⟨k, hk, hselected, hexpected, -⟩ := hl.counts c k' hk
    rw [hl.identity, hexpected]
    exact h.expected id launch hget c k hk (hselected ▸ hsel)

include h in
theorem Owned.packets {f : Flight} (hf : f ∈ flights) {p : PlanObservation} (hp : p ∈ f.pushed) :
    p.kernelLaunchId = f.id := by
  obtain ⟨hid, hsound⟩ := h.sound f hf
  obtain ⟨r, -, -, heq⟩ := hsound.packets p hp
  rw [heq]
  exact hid

/-! ### Launches -/

theorem held_withControl {id : ℕ} {selected : Mask} {slot : Option ℕ} (i s : ℕ) :
    (state.withControl id selected slot).Held i s ↔
      if slot = some s then i = id else state.Held i s := by
  cases slot with
  | none => simp [Context.withControl]
  | some s' =>
    by_cases hs : s = s'
    · simp [Context.withControl, Context.control, Context.Held, hs, eq_comm]
    · have hs' : s' ≠ s := fun h => hs h.symm
      simp [Context.withControl, Context.control, Context.Held, hs, hs']

theorem withControl_slots {id : ℕ} {selected : Mask} {slot : Option ℕ} {s : ℕ} (h : slot ≠ some s) :
    (state.withControl id selected slot).slots s = state.slots s := by
  cases slot with
  | none => rfl
  | some s' => exact Function.update_of_ne (fun hs => h (by rw [hs])) _ _

include h in
/-- A control in a free slot is nobody's yet. -/
theorem Owned.withControl {id : ℕ} {selected : Mask} {slot : Option ℕ}
    (hfree : ∀ s, slot = some s → state.occupied s = false) (hid : nextId ≤ id) :
    Owned t (state.withControl id selected slot) (id + 1) flights := by
  have hlaunches : (state.withControl id selected slot).launches = state.launches := by
    cases slot <;> rfl
  have hbound : (state.withControl id selected slot).bound = state.bound := by
    cases slot <;> rfl
  have hne : ∀ i s, state.Held i s → slot ≠ some s := by
    rintro i s hheld hs
    rw [Context.Held, hfree s hs] at hheld
    cases hheld.1
  have hheld : ∀ i s, state.Held i s → (state.withControl id selected slot).Held i s := by
    intro i s hown
    rw [held_withControl, if_neg (hne i s hown)]
    exact hown
  have hold : ∀ f ∈ flights, ∀ s, (state.withControl id selected slot).Held f.id s →
      slot ≠ some s ∧ state.Held f.id s := by
    intro f hf s hown
    rw [held_withControl] at hown
    split_ifs at hown with hs
    · have := h.fresh f hf
      omega
    · exact ⟨hs, hown⟩
  refine ⟨fun root b hb => h.bounds root b (hbound ▸ hb), h.nodup, fun f hf => ?_, fun i hi => ?_,
    fun f hf hended s hs => hheld f.id s (h.running f hf hended s hs), fun f hf s hs hown => ?_,
    h.sound, h.returned, fun i launch hget hslot => ?_, fun f hf launch hget => ?_,
    fun f hf launch hget => ?_, fun f hf launch hget => ?_, fun i launch hget => ?_⟩
  · exact (h.fresh f hf).trans_le (by omega)
  · rw [hlaunches] at hi
    exact (h.keys i hi).trans_le (by omega)
  · obtain ⟨hs', hown⟩ := hold f hf s hown
    rw [withControl_slots hs']
    exact h.own f hf s hs hown
  · rw [hlaunches] at hget
    obtain ⟨hown, havailable⟩ := h.control i launch hget hslot
    exact ⟨hheld i launch.slot hown, havailable⟩
  · rw [hlaunches] at hget
    exact h.slot f hf launch hget
  · rw [hlaunches] at hget
    exact h.mask f hf launch hget
  · rw [hlaunches] at hget
    exact h.counted f hf launch hget
  · rw [hlaunches] at hget
    exact h.expected i launch hget

include h in
/-- A launch is recorded before its kernel runs. -/
theorem Owned.record {id : ℕ} {launch : Launch} (hid : id < nextId)
    (hnew : ∀ f ∈ flights, f.id ≠ id)
    (hcontrol : launch.slot < kPlanLaunchSlots → state.Held id launch.slot ∧ launch.countersAvailable = false)
    (hexpected : ∀ c k, launch.counts.get? c = some k → k.selected = true → ∃ config, t.configs[c]? = some config ∧ launch.identity.expectedEntries config.source = .ok k.expectedEntries) :
    Owned t { state with launches := state.launches.insert id launch } nextId flights := by
  have hother : ∀ f ∈ flights, (state.launches.insert id launch).get? f.id =
      state.launches.get? f.id := by
    intro f hf
    rw [Dict.get?_insert, if_neg (hnew f hf)]
  refine ⟨h.bounds, h.nodup, h.fresh, fun i hi => ?_, h.running, h.own, h.sound, h.returned,
    fun i launch' hget hslot => ?_, fun f hf launch' hget => ?_, fun f hf launch' hget => ?_,
    fun f hf launch' hget => ?_, fun i launch' hget => ?_⟩
  · rcases (Dict.mem_keys_insert _ _ _ _).mp hi with rfl | hi
    · exact hid
    · exact h.keys i hi
  · rw [Dict.get?_insert] at hget
    split_ifs at hget with hi
    · cases hget
      rw [hi]
      exact hcontrol hslot
    · exact h.control i launch' hget hslot
  · rw [hother f hf] at hget
    exact h.slot f hf launch' hget
  · rw [hother f hf] at hget
    exact h.mask f hf launch' hget
  · rw [hother f hf] at hget
    exact h.counted f hf launch' hget
  · rw [Dict.get?_insert] at hget
    split_ifs at hget with hi
    · cases hget
      exact hexpected
    · exact h.expected i launch' hget

include h in
/-- The kernel of a recorded launch starts with a fresh control. -/
theorem Owned.start {id : ℕ} {slot : Option ℕ} {selected : Mask} (hid : id < nextId)
    (hnew : ∀ f ∈ flights, f.id ≠ id)
    (hslot : ∀ s, slot = some s → state.Held id s ∧ state.slots s = { launchId := id, enabled := selected })
    (hnone : slot = none → ∀ c, enabled selected c = false)
    (hlaunch : ∀ launch, state.launches.get? id = some launch → (launch.slot < kPlanLaunchSlots → slot = some launch.slot) ∧ (∀ c, enabled selected c = (launch.counts.get? c).any (·.selected)) ∧ ∀ c k, launch.counts.get? c = some k → k.selected = true → launch.slot < kPlanLaunchSlots) :
    Owned t state nextId (flights ++ [state.flight slot id]) := by
  have hmem : ∀ f ∈ flights ++ [state.flight slot id],
      f ∈ flights ∨ f = state.flight slot id := by
    intro f hf
    simpa using hf
  have hcontrol : ∃ mask, (state.flight slot id).control = { launchId := id, enabled := mask } ∧
      ∀ c, enabled mask c = enabled selected c := by
    cases slot with
    | none => exact ⟨Mask.clear, rfl, fun c => by rw [hnone rfl c, enabled_clear]⟩
    | some s => exact ⟨selected, (hslot s rfl).2, fun _ => rfl⟩
  refine ⟨h.bounds, ?_, fun f hf => ?_, h.keys, fun f hf hended s hs => ?_, fun f hf s hs hown => ?_,
    fun f hf => ?_, fun f hf hended => ?_, h.control, fun f hf launch hget hlt => ?_,
    fun f hf launch hget c => ?_, fun f hf launch hget c k hk hsel => ?_, h.expected⟩
  · rw [List.map_append, List.nodup_append]
    refine ⟨h.nodup, List.nodup_singleton _, ?_⟩
    intro i hi j hj
    obtain ⟨f, hf, rfl⟩ := List.mem_map.mp hi
    rw [List.mem_singleton.mp hj]
    exact hnew f hf
  · rcases hmem f hf with hf | rfl
    · exact h.fresh f hf
    · exact hid
  · rcases hmem f hf with hf | rfl
    · exact h.running f hf hended s hs
    · exact (hslot s hs).1
  · rcases hmem f hf with hf | rfl
    · exact h.own f hf s hs hown
    · have hs' : slot = some s := hs
      simp [Context.flight, hs']
  · rcases hmem f hf with hf | rfl
    · exact h.sound f hf
    · obtain ⟨mask, hmask, -⟩ := hcontrol
      rw [hmask]
      exact ⟨rfl, onDevice_nil t id mask⟩
  · rcases hmem f hf with hf | rfl
    · exact h.returned f hf hended
    · cases hended
  · rcases hmem f hf with hf | rfl
    · exact h.slot f hf launch hget hlt
    · exact (hlaunch launch hget).1 hlt
  · rcases hmem f hf with hf | rfl
    · exact h.mask f hf launch hget c
    · obtain ⟨mask, hmask, henabled⟩ := hcontrol
      rw [hmask, henabled c]
      exact (hlaunch launch hget).2.1 c
  · rcases hmem f hf with hf | rfl
    · exact h.counted f hf launch hget c k hk hsel
    · exact .inl ((hlaunch launch hget).2.2 c k hk hsel)

include h in
/-- A launch that took a control leaves every other owner alone, recorded or not. -/
theorem Owned.takes {identity : Identity} {id : ℕ} {prepared : Preparing} {slot : Option ℕ}
    (htakes : Takes t state identity id prepared slot) (hid : nextId ≤ id) {launch : Launch}
    (hbegins : launch.Begins identity prepared slot) :
    Owned t { state.withControl id prepared.selected slot with
      launches := state.launches.insert id launch } (id + 1) flights ∧
    Owned t { state.withControl id prepared.selected slot with
      launches := state.launches.insert id launch } (id + 1)
      (flights ++ [(state.withControl id prepared.selected slot).flight slot id]) := by
  have hlaunches : (state.withControl id prepared.selected slot).launches = state.launches := by
    cases slot <;> rfl
  have hslot : ∀ s, slot = some s → (state.withControl id prepared.selected slot).Held id s ∧
      (state.withControl id prepared.selected slot).slots s =
        { launchId := id, enabled := prepared.selected } := by
    rintro s rfl
    exact ⟨(held_withControl id s).mpr (by simp), Function.update_self _ _ _⟩
  have hnew : ∀ f ∈ flights, f.id ≠ id := by
    intro f hf
    have := h.fresh f hf
    omega
  have hcontrol : launch.slot < kPlanLaunchSlots → slot = some launch.slot := by
    intro hlt
    rw [hbegins.slot] at hlt ⊢
    cases slot with
    | none => exact absurd hlt (Nat.lt_irrefl _)
    | some s => rfl
  have htaken : Owned t (state.withControl id prepared.selected slot) (id + 1) flights :=
    h.withControl (fun s hs => (htakes.free s hs).2) hid
  have hrecord : Owned t { state.withControl id prepared.selected slot with
      launches := state.launches.insert id launch } (id + 1) flights := by
    rw [← hlaunches]
    refine htaken.record (Nat.lt_succ_self id) hnew
      (fun hlt => ⟨(hslot launch.slot (hcontrol hlt)).1, hbegins.available⟩) fun c k hk hsel => ?_
    rw [hbegins.counts] at hk
    rw [hbegins.identity]
    exact htakes.fresh.expected c k hk hsel
  refine ⟨hrecord, hrecord.start (Nat.lt_succ_self id) hnew hslot htakes.none
    fun launch' hget => ?_⟩
  obtain rfl : launch = launch' := by
    rw [Dict.get?_insert, if_pos rfl] at hget
    exact Option.some.inj hget
  refine ⟨hcontrol, fun c => hbegins.counts ▸ htakes.fresh.selected c, fun c k hk hsel => ?_⟩
  rw [hbegins.counts] at hk
  -- a selected configuration is enabled in the control, so there is one
  have henabled : enabled prepared.selected c = true := by
    rw [htakes.fresh.selected c, hk, Option.any_some, hsel]
  cases slot with
  | none =>
    rw [htakes.none rfl c] at henabled
    cases henabled
  | some s =>
    rw [hbegins.slot]
    exact (htakes.free s rfl).1

/-! ### Kernels that run and end -/

theorem DeviceStep.pushed {s s' : PlanLaunchControl × List Running × List PlanObservation}
    (h : DeviceStep t s s') : ∀ p ∈ s.2.2, p ∈ s'.2.2 := by
  cases h with
  | enter => exact fun p hp => hp
  | advance => exact fun p hp => List.mem_append_left _ hp

theorem mem_middle {f g g' : Flight} {before after : List Flight} (h : g ∈ before ++ g' :: after) :
    g = g' ∨ g ∈ before ++ f :: after ∧ (g ∈ before ∨ g ∈ after) := by
  rcases List.mem_append.mp h with h | h
  · exact .inr ⟨List.mem_append_left _ h, .inl h⟩
  rcases List.mem_cons.mp h with h | h
  · exact .inl h
  · exact .inr ⟨List.mem_append_right _ (List.mem_cons_of_mem f h), .inr h⟩

/-- Another kernel has another number. -/
theorem id_ne_of_nodup {f g : Flight} {before after : List Flight}
    (h : ((before ++ f :: after).map Flight.id).Nodup) (hg : g ∈ before ∨ g ∈ after) :
    g.id ≠ f.id := by
  rw [List.map_append, List.map_cons, List.nodup_middle, List.nodup_cons] at h
  rintro heq
  apply h.1
  rw [← List.map_append, ← heq]
  exact List.mem_map_of_mem (List.mem_append.mpr hg)

variable {f : Flight} {before after : List Flight}

/-- A step of a kernel changes its own control and nothing else. -/
theorem Owned.run (h : Owned t state nextId (before ++ f :: after)) (hended : f.ended = false)
    {slot : ℕ} (hslot : f.slot = some slot) {control : PlanLaunchControl} {visits : List Running}
    {pushed : List PlanObservation}
    (hstep : DeviceStep t (state.slots slot, f.visits, f.pushed) (control, visits, pushed)) :
    Owned t { state with slots := Function.update state.slots slot control } nextId
      (before ++ { f with control, visits, pushed } :: after) := by
  have hf : f ∈ before ++ f :: after := by simp
  have hown := h.running f hf hended slot hslot
  have hmine := h.own f hf slot hslot hown
  obtain ⟨hfid, hsound⟩ := h.sound f hf
  obtain ⟨hdevice, henabled, hid⟩ := OnDevice.step (by rw [hmine]; exact hsound) hstep
  dsimp only at hdevice henabled hid
  have hcontrol : control.launchId = f.id := hid.trans hown.2
  have hheld : ∀ i s,
      Context.Held { state with slots := Function.update state.slots slot control } i s ↔
        state.Held i s := by
    intro i s
    simp only [Context.Held]
    by_cases hs : s = slot
    · rw [hs, Function.update_self, hid]
    · rw [Function.update_of_ne hs]
  have hothers : ∀ g ∈ before ++ { f with control, visits, pushed } :: after,
      g = { f with control, visits, pushed } ∨ g ∈ before ++ f :: after ∧ g.id ≠ f.id := by
    intro g hg
    rcases mem_middle (f := f) hg with rfl | ⟨hmem, hg⟩
    · exact .inl rfl
    · exact .inr ⟨hmem, id_ne_of_nodup h.nodup hg⟩
  refine ⟨h.bounds, by simpa using h.nodup, fun g hg => ?_, h.keys, fun g hg hended' s hs => ?_,
    fun g hg s hs hown' => ?_, fun g hg => ?_, fun g hg hended' => ?_,
    fun i launch hget hlt => ?_, fun g hg launch hget hlt => ?_, fun g hg launch hget c => ?_,
    fun g hg launch hget c k hk hsel => ?_, h.expected⟩
  · rcases hothers g hg with rfl | ⟨hmem, -⟩
    · exact h.fresh f hf
    · exact h.fresh g hmem
  · rw [hheld]
    rcases hothers g hg with rfl | ⟨hmem, -⟩
    · exact h.running f hf hended s hs
    · exact h.running g hmem hended' s hs
  · rw [hheld] at hown'
    rcases hothers g hg with rfl | ⟨hmem, hne⟩
    · obtain rfl : slot = s := Option.some.inj (hslot.symm.trans hs)
      exact Function.update_self _ _ _
    · have hs' : s ≠ slot := by
        rintro rfl
        exact hne (hown'.2.symm.trans hown.2)
      simp only [Function.update_of_ne hs']
      exact h.own g hmem s hs hown'
  · rcases hothers g hg with rfl | ⟨hmem, -⟩
    · exact ⟨hcontrol, hdevice⟩
    · exact h.sound g hmem
  · rcases hothers g hg with rfl | ⟨hmem, -⟩
    · rw [hended] at hended'
      cases hended'
    · exact h.returned g hmem hended'
  · obtain ⟨hown', havailable⟩ := h.control i launch hget hlt
    exact ⟨(hheld i launch.slot).mpr hown', havailable⟩
  · rcases hothers g hg with rfl | ⟨hmem, -⟩
    · exact h.slot f hf launch hget hlt
    · exact h.slot g hmem launch hget hlt
  · rcases hothers g hg with rfl | ⟨hmem, -⟩
    · rw [henabled, hmine]
      exact h.mask f hf launch hget c
    · exact h.mask g hmem launch hget c
  · rcases hothers g hg with rfl | ⟨hmem, -⟩
    · rcases h.counted f hf launch hget c k hk hsel with hlt | ⟨hended', -⟩
      · exact .inl hlt
      · rw [hended] at hended'
        cases hended'
    · exact h.counted g hmem launch hget c k hk hsel

/-- A kernel ends when all of its visits have returned. -/
theorem Owned.exit (h : Owned t state nextId (before ++ f :: after))
    (hdone : ∀ r ∈ f.visits, r.done t = true) :
    Owned t state nextId (before ++ { f with ended := true } :: after) := by
  have hf : f ∈ before ++ f :: after := by simp
  have hothers : ∀ g ∈ before ++ { f with ended := true } :: after,
      g = { f with ended := true } ∨ g ∈ before ++ f :: after := by
    intro g hg
    exact (mem_middle (f := f) hg).imp_right And.left
  refine ⟨h.bounds, by simpa using h.nodup, fun g hg => ?_, h.keys, fun g hg hended => ?_,
    fun g hg => ?_, fun g hg => ?_, fun g hg hended => ?_, h.control, fun g hg => ?_,
    fun g hg => ?_, fun g hg launch hget c k hk hsel => ?_, h.expected⟩
  · rcases hothers g hg with rfl | hmem
    · exact h.fresh f hf
    · exact h.fresh g hmem
  · rcases hothers g hg with rfl | hmem
    · cases hended
    · exact h.running g hmem hended
  · rcases hothers g hg with rfl | hmem
    · exact h.own f hf
    · exact h.own g hmem
  · rcases hothers g hg with rfl | hmem
    · exact h.sound f hf
    · exact h.sound g hmem
  · rcases hothers g hg with rfl | hmem
    · exact hdone
    · exact h.returned g hmem hended
  · rcases hothers g hg with rfl | hmem
    · exact h.slot f hf
    · exact h.slot g hmem
  · rcases hothers g hg with rfl | hmem
    · exact h.mask f hf
    · exact h.mask g hmem
  · rcases hothers g hg with rfl | hmem
    · exact (h.counted f hf launch hget c k hk hsel).imp_right fun hc => ⟨rfl, hc.2⟩
    · exact h.counted g hmem launch hget c k hk hsel

include h in
/-- A completion reads the counters that its kernel ended with, and frees a slot that no
other kernel owns. -/
theorem Owned.deviceComplete {id : ℕ} {completed : Bool} (drained : Bool)
    (hended : completed = true → ∀ f ∈ flights, f.id = id → f.ended = true) :
    Owned t (state.deviceComplete id completed drained) nextId flights := by
  rcases deviceComplete_cases state id completed drained with hkeeps | ⟨hcompleted, launch, hlaunch,
    hlt, launch', hidentity, hslot, hcounts, heq⟩
  · exact h.keeps hkeeps
  obtain ⟨hown, -⟩ := h.control id launch hlaunch hlt
  have hheld : ∀ i s, Context.Held { state with
        launches := state.launches.insert id launch'
        occupied := Function.update state.occupied launch.slot false } i s ↔
      state.Held i s ∧ s ≠ launch.slot := by
    intro i s
    simp only [Context.Held]
    by_cases hs : s = launch.slot
    · simp [hs]
    · simp [hs]
  -- whoever owns the slot is the kernel of the launch, and it ended
  have hmine : ∀ f ∈ flights, state.Held f.id launch.slot → f.ended = true := by
    intro f hf hf'
    exact hended hcompleted f hf (hf'.2.symm.trans hown.2)
  have hnone : ∀ c k', launch'.counts.get? c = some k' → ∃ k, launch.counts.get? c = some k ∧
      k'.selected = k.selected ∧ k'.expectedEntries = k.expectedEntries ∧
      k'.device = (state.slots launch.slot).counters c := by
    intro c k' hk
    rw [hcounts] at hk
    simp only [Launch.readCounters, Dict.get?_mapValues, Option.map_eq_some_iff] at hk
    obtain ⟨k, hk, rfl⟩ := hk
    exact ⟨k, hk, rfl, rfl, rfl⟩
  rw [heq]
  refine ⟨h.bounds, h.nodup, h.fresh, fun i hi => ?_, fun f hf hrun s hs => ?_,
    fun f hf s hs hs' => ?_, h.sound, h.returned, fun i l hget hl => ?_,
    fun f hf l hget hl => ?_, fun f hf l hget c => ?_, fun f hf l hget c k hk hsel => ?_,
    fun i l hget c k hk hsel => ?_⟩
  · rcases (Dict.mem_keys_insert _ _ _ _).mp hi with rfl | hi
    · exact h.keys i (Dict.mem_keys_of_get? hlaunch)
    · exact h.keys i hi
  · have hf' := h.running f hf hrun s hs
    refine (hheld f.id s).mpr ⟨hf', ?_⟩
    rintro rfl
    rw [hmine f hf hf'] at hrun
    cases hrun
  · exact h.own f hf s hs ((hheld f.id s).mp hs').1
  · rw [Dict.get?_insert] at hget
    split_ifs at hget with hi
    · cases hget
      rw [hslot] at hl
      exact absurd hl (Nat.lt_irrefl _)
    · obtain ⟨hown', havailable⟩ := h.control i l hget hl
      refine ⟨(hheld i l.slot).mpr ⟨hown', fun hs => hi ?_⟩, havailable⟩
      rw [← hown'.2, hs]
      exact hown.2
  · rw [Dict.get?_insert] at hget
    split_ifs at hget with hi
    · cases hget
      rw [hslot] at hl
      exact absurd hl (Nat.lt_irrefl _)
    · exact h.slot f hf l hget hl
  · rw [Dict.get?_insert] at hget
    split_ifs at hget with hi
    · cases hget
      rw [h.mask f hf launch (hi ▸ hlaunch) c, hcounts]
      simp only [Launch.readCounters, Dict.get?_mapValues]
      cases launch.counts.get? c <;> rfl
    · exact h.mask f hf l hget c
  · rw [Dict.get?_insert] at hget
    split_ifs at hget with hi
    · cases hget
      obtain ⟨k₀, hk₀, hsel₀, -, hdevice⟩ := hnone c k hk
      have hslot' := h.slot f hf launch (hi ▸ hlaunch) hlt
      rw [h.own f hf launch.slot hslot' (hi ▸ hown)] at hdevice
      exact .inr ⟨hended hcompleted f hf hi, hdevice⟩
    · exact h.counted f hf l hget c k hk hsel
  · rw [Dict.get?_insert] at hget
    split_ifs at hget with hi
    · cases hget
      obtain ⟨k₀, hk₀, hsel₀, hexpected₀, -⟩ := hnone c k hk
      rw [hidentity, hexpected₀]
      exact h.expected id launch hlaunch c k₀ hk₀ (hsel₀ ▸ hsel)
    · exact h.expected i l hget c k hk hsel

end CuTracer.PlanRuntime
