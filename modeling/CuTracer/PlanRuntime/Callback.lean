import CuTracer.PlanRuntime.Geometry

/-! The callback that the device runs at a point, one atomic operation at a time: warps of
a launch are at any points of it in any order, and share the counters of the launch. For
each configuration, the counters say how many visits selected it, how many packets were
pushed and how many were dropped; no two packets have one sequence number; and if none
was dropped, the packets are those of the visits that selected the configuration. -/

namespace CuTracer.PlanRuntime

open Plan

/-! ### Packets and counters -/

/-- `plan_observation_t`; the values are those of a word in a lane. -/
structure PlanObservation where
  version : ℕ := 1
  kernelLaunchId : ℕ
  pointId : ℕ
  configIndex : ℕ
  sequence : ℕ
  cta : Cta
  warpInCta : ℕ
  reachedMask : BitVec 32
  executedMask : BitVec 32
  selectedMask : BitVec 32
  validMask : BitVec 32
  wordCount : ℕ
  wordMask : BitVec 32
  values : ℕ → ℕ → BitVec 32

structure PlanDeviceCounters where
  attempted : ℕ := 0
  attemptedBytes : ℕ := 0
  emitted : ℕ := 0
  emittedBytes : ℕ := 0
  dropped : ℕ := 0
  entries : ℕ := 0
  deriving DecidableEq

/-- The control of a launch. The tables are those of the context. -/
structure PlanLaunchControl where
  launchId : ℕ := 0
  enabled : Mask := Mask.clear
  counters : ℕ → PlanDeviceCounters := fun _ => {}

def PlanLaunchControl.bump (control : PlanLaunchControl) (c : ℕ)
    (f : PlanDeviceCounters → PlanDeviceCounters) : PlanLaunchControl :=
  { control with counters := Function.update control.counters c (f (control.counters c)) }

/-! ### Visits -/

/-- A warp at a point: its place, who is there, who executes the instruction, and the
words of every lane. -/
structure Visit where
  pointId : ℕ
  wordCount : ℕ
  cta : Cta
  warp : ℕ
  reached : BitVec 32
  executed : BitVec 32
  words : ℕ → ℕ → BitVec 32

/-- How far the callback is with a configuration. -/
inductive Stage where
  | look
  | entered
  | sequenced (sequence : ℕ)
  | placed (sequence byteOffset : ℕ)
  | pushed
  | counted
  deriving DecidableEq

/-- A visit in the loop over the configurations. -/
structure Running where
  visit : Visit
  config : ℕ := 0
  stage : Stage := .look

section

variable (t : Tables)

def pointAt (id : ℕ) : PlanDevicePoint := (t.points[id]?.map (·.device)).getD {}

/-- Does the launch enable the configuration, the point ask for it, and its selection take
the warp and one of its lanes? -/
def Visit.selected (mask : Mask) (v : Visit) (c : ℕ) : Bool :=
  match t.configs[c]? with
  | none => false
  | some config =>
    let device := deviceConfig config.source
    enabled mask c && enabled (pointAt t v.pointId).configurations c &&
      device.geometrySelected v.cta v.warp && v.reached &&& device.laneMask ≠ 0#32

def configAt (c : ℕ) : PlanDeviceConfig :=
  (t.configs[c]?.map fun config => deviceConfig config.source).getD ⟨0, 0, 0#32, 0, 0, [], []⟩

def Visit.packet (launchId : ℕ) (v : Visit) (c sequence : ℕ) : PlanObservation :=
  let point := pointAt t v.pointId
  let selected := v.reached &&& (configAt t c).laneMask
  let valid := if enabled point.reachedPolicy c then selected else selected &&& v.executed
  let mask := point.wordMasks c
  { kernelLaunchId := launchId
    pointId := v.pointId
    configIndex := c
    sequence
    cta := v.cta
    warpInCta := v.warp
    reachedMask := v.reached
    executedMask := v.executed
    selectedMask := selected
    validMask := valid
    wordCount := v.wordCount
    wordMask := mask
    values := fun word lane =>
      if word < v.wordCount ∧ mask.getLsbD word = true ∧ valid.getLsbD lane = true then
        v.words word lane
      else 0#32 }

def overBudget (device : PlanDeviceConfig) (sequence byteOffset : ℕ) : Bool :=
  device.maxRecords ≤ sequence || device.maxBytes < byteOffset ||
    device.maxBytes - byteOffset < packetBytes

/-- The next operation of a visit: at most one atomic addition or one push. -/
def Running.step (control : PlanLaunchControl) (r : Running) :
    PlanLaunchControl × Running × Option PlanObservation :=
  match r.stage with
  | .look =>
    if r.visit.selected t control.enabled r.config = false then
      (control, { r with config := r.config + 1 }, none)
    else if enabled (pointAt t r.visit.pointId).entryMarker r.config then
      (control.bump r.config fun k => { k with entries := k.entries + 1 },
        { r with stage := .entered }, none)
    else (control, { r with stage := .entered }, none)
  | .entered =>
    (control.bump r.config fun k => { k with attempted := k.attempted + 1 },
      { r with stage := .sequenced (control.counters r.config).attempted }, none)
  | .sequenced sequence =>
    (control.bump r.config fun k => { k with attemptedBytes := k.attemptedBytes + packetBytes },
      { r with stage := .placed sequence (control.counters r.config).attemptedBytes }, none)
  | .placed sequence byteOffset =>
    if overBudget (configAt t r.config) sequence byteOffset then
      (control.bump r.config fun k => { k with dropped := k.dropped + 1 },
        { r with config := r.config + 1, stage := .look }, none)
    else
      (control, { r with stage := .pushed },
        some (r.visit.packet t control.launchId r.config sequence))
  | .pushed =>
    (control.bump r.config fun k => { k with emitted := k.emitted + 1 },
      { r with stage := .counted }, none)
  | .counted =>
    (control.bump r.config fun k => { k with emittedBytes := k.emittedBytes + packetBytes },
      { r with config := r.config + 1, stage := .look }, none)

/-- The callback returns at once for a point that the tables lack or too many words. -/
def Visit.enters (v : Visit) : Prop := v.pointId < t.points.length ∧ v.wordCount ≤ planCaptureWords

/-- The visits of a launch in any order, and what they push. -/
inductive DeviceStep : PlanLaunchControl × List Running × List PlanObservation →
    PlanLaunchControl × List Running × List PlanObservation → Prop where
  | enter {control visits pushed} (v : Visit) (h : v.enters t) :
      DeviceStep (control, visits, pushed) (control, visits ++ [{ visit := v }], pushed)
  | advance {control before after pushed} (r : Running) (h : r.config < t.configs.length) :
      DeviceStep (control, before ++ r :: after, pushed)
        ((r.step t control).1, before ++ (r.step t control).2.1 :: after,
          pushed ++ (r.step t control).2.2.toList)

def Running.done (r : Running) : Bool := t.configs.length ≤ r.config

end

/-! ### Where a visit is -/

def Stage.rank : Stage → ℕ
  | .look => 0
  | .entered => 1
  | .sequenced _ => 2
  | .placed _ _ => 3
  | .pushed => 4
  | .counted => 5

namespace Running

variable (t : Tables) (mask : Mask) (c : ℕ)

/-- The visit selected the configuration and came as far with it. -/
def passed (rank : ℕ) (r : Running) : Bool :=
  r.visit.selected t mask c && (c < r.config || r.config = c && rank ≤ r.stage.rank)

def marked (r : Running) : Bool := enabled (pointAt t r.visit.pointId).entryMarker c

/-- The visit is between two ranks of the configuration. -/
def between (low high : ℕ) (r : Running) : Bool :=
  r.config = c && low ≤ r.stage.rank && r.stage.rank ≤ high

/-- The sequence number that the visit holds, before it pushes or drops. -/
def holding (r : Running) : Option ℕ :=
  if r.config = c then
    match r.stage with
    | .sequenced sequence => some sequence
    | .placed sequence _ => some sequence
    | _ => none
  else none

/-- The visit holds a place within the budget of bytes. -/
def fits (r : Running) : Bool :=
  match r.stage with
  | .placed _ byteOffset => r.config = c && byteOffset + packetBytes ≤ (configAt t c).maxBytes
  | _ => false

end Running

def packetsOf (c : ℕ) (pushed : List PlanObservation) : List PlanObservation :=
  pushed.filter (·.configIndex = c)

/-- A packet without its sequence number. -/
def PlanObservation.shape (p : PlanObservation) : PlanObservation := { p with sequence := 0 }

section

variable (t : Tables) (c : ℕ)

def taken (visits : List Running) (pushed : List PlanObservation) : List ℕ :=
  (packetsOf c pushed).map (·.sequence) ++ visits.filterMap (Running.holding c)

/-- What the counters of a configuration say about the visits and the packets. -/
structure Accounted (control : PlanLaunchControl) (visits : List Running)
    (pushed : List PlanObservation) : Prop where
  entries : (control.counters c).entries =
    visits.countP fun r => r.marked t c && r.passed t control.enabled c 1
  attempted : (control.counters c).attempted = visits.countP (Running.passed t control.enabled c 2)
  outcome : (control.counters c).attempted = (packetsOf c pushed).length +
    (control.counters c).dropped + visits.countP (Running.between c 2 3)
  emitted : (packetsOf c pushed).length =
    (control.counters c).emitted + visits.countP (Running.between c 4 4)
  emittedBytes : packetBytes * (packetsOf c pushed).length =
    (control.counters c).emittedBytes + packetBytes * visits.countP (Running.between c 4 5)
  attemptedBytes : ∃ k, (control.counters c).attemptedBytes = packetBytes * k ∧
    (packetsOf c pushed).length + visits.countP (Running.fits t c) ≤
      min k ((configAt t c).maxBytes / packetBytes)
  nodup : (taken c visits pushed).Nodup
  below : ∀ s ∈ taken c visits pushed, s < (control.counters c).attempted
  records : ∀ p ∈ packetsOf c pushed, p.sequence < (configAt t c).maxRecords
  shown : (control.counters c).dropped = 0 →
    ((packetsOf c pushed).map PlanObservation.shape).Perm
      ((visits.filter (Running.passed t control.enabled c 4)).map fun r =>
        r.visit.packet t control.launchId c 0)

end

variable {t : Tables} {c : ℕ} {control : PlanLaunchControl} {r : Running}
  {visits visits' rest : List Running} {pushed : List PlanObservation}

theorem Accounted.perm (h : Accounted t c control visits pushed) (hperm : visits.Perm visits') :
    Accounted t c control visits' pushed := by
  have htaken : (taken c visits pushed).Perm (taken c visits' pushed) :=
    (hperm.filterMap _).append_left _
  refine ⟨?_, ?_, ?_, ?_, ?_, ?_, htaken.nodup_iff.mp h.nodup, fun s hs => ?_, h.records,
    fun hd => (h.shown hd).trans ((hperm.filter _).map _)⟩
  · rw [h.entries, hperm.countP_eq]
  · rw [h.attempted, hperm.countP_eq]
  · rw [h.outcome, hperm.countP_eq]
  · rw [h.emitted, hperm.countP_eq]
  · rw [h.emittedBytes, hperm.countP_eq]
  · rw [← hperm.countP_eq]
    exact h.attemptedBytes
  · exact h.below s (htaken.mem_iff.mpr hs)

/-- A visit that enters has passed nothing. -/
theorem Accounted.enter (h : Accounted t c control visits pushed) (v : Visit) :
    Accounted t c control ({ visit := v } :: visits) pushed := by
  have hpassed : ∀ k, 0 < k →
      Running.passed t control.enabled c k { visit := v } = false := by
    intro k hk
    have hrank : ¬k ≤ Stage.look.rank := Nat.not_le.mpr hk
    simp [Running.passed, hrank]
  have hholding : Running.holding c { visit := v } = none := by simp [Running.holding]
  refine ⟨?_, ?_, ?_, ?_, ?_, ?_, ?_, ?_, h.records, ?_⟩
  · simpa [hpassed] using h.entries
  · simpa [hpassed] using h.attempted
  · simpa [Running.between, Stage.rank] using h.outcome
  · simpa [Running.between, Stage.rank] using h.emitted
  · simpa [Running.between, Stage.rank] using h.emittedBytes
  · simpa [Running.fits] using h.attemptedBytes
  · simpa [taken, hholding] using h.nodup
  · simpa [taken, hholding] using h.below
  · simpa [hpassed] using h.shown

/-- No counter of events passes the number of visits, so none wraps before `2 ^ 64` of them. -/
theorem Accounted.counters_le (h : Accounted t c control visits pushed) :
    (control.counters c).entries ≤ visits.length ∧ (control.counters c).attempted ≤ visits.length ∧
      (control.counters c).dropped + (control.counters c).emitted ≤ visits.length := by
  have hattempted := h.attempted.trans_le List.countP_le_length
  refine ⟨h.entries.trans_le List.countP_le_length, hattempted, ?_⟩
  have houtcome := h.outcome
  have hemitted := h.emitted
  omega

/-! ### One operation -/

@[simp] theorem bump_counters (f : PlanDeviceCounters → PlanDeviceCounters) :
    (control.bump c f).counters c = f (control.counters c) := Function.update_self _ _ _

@[simp] theorem bump_enabled (f : PlanDeviceCounters → PlanDeviceCounters) :
    (control.bump c f).enabled = control.enabled := rfl

@[simp] theorem bump_launchId (f : PlanDeviceCounters → PlanDeviceCounters) :
    (control.bump c f).launchId = control.launchId := rfl

/-- A visit goes on with its configuration or to the next one. -/
inductive Moves (r : Running) : Running → Prop where
  | stay (stage : Stage) : Moves r { r with stage }
  | next : Moves r { r with config := r.config + 1, stage := .look }

theorem Moves.visit {r' : Running} (h : Moves r r') : r'.visit = r.visit := by
  cases h <;> rfl

theorem step_moves (t : Tables) (control : PlanLaunchControl) (r : Running) :
    Moves r (r.step t control).2.1 := by
  unfold Running.step
  split
  case h_1 hlook =>
    split_ifs
    · have := Moves.next (r := r)
      rwa [← hlook] at this
    · exact .stay _
    · exact .stay _
  case h_4 =>
    split_ifs
    · exact .next
    · exact .stay _
  case h_6 => exact .next
  all_goals exact .stay _

theorem step_control (t : Tables) (control : PlanLaunchControl) (r : Running) :
    ((r.step t control).1.enabled = control.enabled ∧
      (r.step t control).1.launchId = control.launchId) ∧
    ∀ c, c ≠ r.config → (r.step t control).1.counters c = control.counters c := by
  unfold Running.step
  split
  case h_1 =>
    split_ifs
    · exact ⟨⟨rfl, rfl⟩, fun _ _ => rfl⟩
    · exact ⟨⟨rfl, rfl⟩, fun c hc => Function.update_of_ne hc _ _⟩
    · exact ⟨⟨rfl, rfl⟩, fun _ _ => rfl⟩
  case h_4 =>
    split_ifs
    · exact ⟨⟨rfl, rfl⟩, fun c hc => Function.update_of_ne hc _ _⟩
    · exact ⟨⟨rfl, rfl⟩, fun _ _ => rfl⟩
  all_goals exact ⟨⟨rfl, rfl⟩, fun c hc => Function.update_of_ne hc _ _⟩

theorem step_packet {p : PlanObservation} (h : (r.step t control).2.2 = some p) :
    ∃ sequence byteOffset, r.stage = .placed sequence byteOffset ∧
      overBudget (configAt t r.config) sequence byteOffset = false ∧
      p = r.visit.packet t control.launchId r.config sequence := by
  unfold Running.step at h
  split at h
  case h_1 => split_ifs at h
  case h_4 sequence byteOffset hstage =>
    split_ifs at h with hover
    exact ⟨sequence, byteOffset, hstage, by simpa using hover, (Option.some.inj h).symm⟩
  all_goals cases h

section Elsewhere

variable {r' : Running} (hmove : Moves r r') (hne : c ≠ r.config)
include hmove hne

theorem Moves.passed {mask : Mask} {rank : ℕ} (hrank : 0 < rank) :
    r'.passed t mask c rank = r.passed t mask c rank := by
  cases hmove with
  | stay stage => simp [Running.passed, Ne.symm hne]
  | next =>
    have hlt : c < r.config + 1 ↔ c < r.config := by omega
    have hrank' : ¬rank ≤ Stage.look.rank := Nat.not_le.mpr hrank
    simp [Running.passed, hlt, hrank', Ne.symm hne]

theorem Moves.between {low high : ℕ} (hlow : 0 < low) :
    r'.between c low high = r.between c low high := by
  cases hmove with
  | stay stage => simp [Running.between, Ne.symm hne]
  | next =>
    have hlow' : ¬low ≤ Stage.look.rank := Nat.not_le.mpr hlow
    simp [Running.between, hlow', Ne.symm hne]

theorem Moves.holding : r'.holding c = r.holding c := by
  cases hmove with
  | stay stage => simp [Running.holding, Ne.symm hne]
  | next => simp [Running.holding, Ne.symm hne]

theorem Moves.fits : r'.fits t c = r.fits t c := by
  cases hmove with
  | stay stage => cases stage <;> cases hstage : r.stage <;> simp [Running.fits, hstage, Ne.symm hne]
  | next => cases hstage : r.stage <;> simp [Running.fits, hstage, Ne.symm hne]

end Elsewhere

/-- At the other configurations nothing changes. -/
theorem Accounted.elsewhere (h : Accounted t c control (r :: rest) pushed) (hne : c ≠ r.config) :
    Accounted t c (r.step t control).1 ((r.step t control).2.1 :: rest)
      (pushed ++ (r.step t control).2.2.toList) := by
  have hmove := step_moves t control r
  obtain ⟨⟨henabled, hid⟩, hcounters⟩ := step_control t control r
  have hvisit := hmove.visit
  have hpackets : packetsOf c (pushed ++ (r.step t control).2.2.toList) = packetsOf c pushed := by
    rw [packetsOf, List.filter_append, packetsOf, List.append_right_eq_self, List.filter_eq_nil_iff]
    intro p hp
    obtain ⟨_, _, _, _, rfl⟩ := step_packet (Option.mem_toList.mp hp)
    simp [Visit.packet, Ne.symm hne]
  have hpassed : ∀ k, 0 < k → Running.passed t control.enabled c k (r.step t control).2.1 =
      Running.passed t control.enabled c k r := fun k hk => hmove.passed hne hk
  have hbetween : ∀ low high, 0 < low → Running.between c low high (r.step t control).2.1 =
      Running.between c low high r := fun low high hlow => hmove.between hne hlow
  have hmarked : Running.marked t c (r.step t control).2.1 = Running.marked t c r := by
    rw [Running.marked, Running.marked, hvisit]
  constructor
  · simpa [hcounters c hne, henabled, hpassed, hmarked, List.countP_cons] using h.entries
  · simpa [hcounters c hne, henabled, hpassed, List.countP_cons] using h.attempted
  · simpa [hcounters c hne, hpackets, hbetween, List.countP_cons] using h.outcome
  · simpa [hcounters c hne, hpackets, hbetween, List.countP_cons] using h.emitted
  · simpa [hcounters c hne, hpackets, hbetween, List.countP_cons] using h.emittedBytes
  · simpa [hcounters c hne, hpackets, hmove.fits hne, List.countP_cons] using h.attemptedBytes
  · simpa [taken, hpackets, hmove.holding hne, List.filterMap_cons] using h.nodup
  · simpa [taken, hpackets, hmove.holding hne, List.filterMap_cons, hcounters c hne] using h.below
  · simpa [hpackets] using h.records
  · have hshown := h.shown
    rw [List.filter_cons] at hshown ⊢
    simp only [hcounters c hne, hpackets, henabled, hid, hpassed 4 (by omega)]
    split_ifs at hshown ⊢ <;> simpa [hvisit] using hshown

section Here

variable {v : Visit}

attribute [local simp] Running.passed Running.marked Running.between Running.fits Running.holding Stage.rank taken List.countP_cons

/-- A configuration that the visit does not select. -/
theorem Accounted.skip (h : Accounted t c control (⟨v, c, .look⟩ :: rest) pushed)
    (hsel : v.selected t control.enabled c = false) :
    Accounted t c control (⟨v, c + 1, .look⟩ :: rest) pushed := by
  constructor
  · simpa [hsel] using h.entries
  · simpa [hsel] using h.attempted
  · simpa using h.outcome
  · simpa using h.emitted
  · simpa using h.emittedBytes
  · simpa using h.attemptedBytes
  · simpa using h.nodup
  · simpa using h.below
  · exact h.records
  · simpa [hsel] using h.shown

theorem Accounted.look (h : Accounted t c control (⟨v, c, .look⟩ :: rest) pushed)
    (hsel : v.selected t control.enabled c = true) :
    Accounted t c (if enabled (pointAt t v.pointId).entryMarker c then
      control.bump c fun k => { k with entries := k.entries + 1 } else control)
      (⟨v, c, .entered⟩ :: rest) pushed := by
  generalize hmark : enabled (pointAt t v.pointId).entryMarker c = mark
  have hentries := h.entries
  simp only [List.countP_cons, Running.marked, Running.passed, hsel, Stage.rank, hmark] at hentries
  constructor
  · cases mark <;>
      simpa [hsel, hmark] using hentries
  · cases mark <;> simpa using h.attempted
  · cases mark <;> simpa using h.outcome
  · cases mark <;> simpa using h.emitted
  · cases mark <;> simpa using h.emittedBytes
  · cases mark <;> simpa using h.attemptedBytes
  · simpa using h.nodup
  · cases mark <;> simpa using h.below
  · exact h.records
  · cases mark <;> simpa using h.shown

/-- The next sequence number is above all that are taken. -/
theorem Accounted.sequence (h : Accounted t c control (⟨v, c, .entered⟩ :: rest) pushed)
    (hsel : v.selected t control.enabled c = true) :
    Accounted t c (control.bump c fun k => { k with attempted := k.attempted + 1 })
      (⟨v, c, .sequenced (control.counters c).attempted⟩ :: rest) pushed := by
  have htaken : taken c (⟨v, c, .entered⟩ :: rest) pushed = taken c rest pushed := by
    simp
  have hnodup := h.nodup
  have hbelow := h.below
  rw [htaken] at hnodup hbelow
  have hperm : (taken c (⟨v, c, .sequenced (control.counters c).attempted⟩ :: rest) pushed).Perm
      ((control.counters c).attempted :: taken c rest pushed) := by
    rw [taken, List.filterMap_cons]
    simp only [Running.holding, if_true]
    exact List.perm_middle
  constructor
  · simpa using h.entries
  · simpa [hsel] using h.attempted
  · have := h.outcome
    simp at this ⊢
    omega
  · simpa using h.emitted
  · simpa using h.emittedBytes
  · simpa using h.attemptedBytes
  · rw [hperm.nodup_iff, List.nodup_cons]
    exact ⟨fun hmem => lt_irrefl _ (hbelow _ hmem), hnodup⟩
  · intro s hs
    rw [bump_counters]
    rcases List.mem_cons.mp (hperm.mem_iff.mp hs) with rfl | hs
    · exact Nat.lt_succ_self _
    · exact Nat.lt_succ_of_lt (hbelow s hs)
  · exact h.records
  · simpa using h.shown

theorem Accounted.place {s : ℕ} (h : Accounted t c control (⟨v, c, .sequenced s⟩ :: rest) pushed) :
    Accounted t c (control.bump c fun k => { k with attemptedBytes := k.attemptedBytes + packetBytes })
      (⟨v, c, .placed s (control.counters c).attemptedBytes⟩ :: rest) pushed := by
  constructor
  · simpa using h.entries
  · simpa using h.attempted
  · simpa using h.outcome
  · simpa using h.emitted
  · simpa using h.emittedBytes
  · obtain ⟨k, hk, hroom⟩ := h.attemptedBytes
    refine ⟨k + 1, by rw [bump_counters, hk, Nat.mul_succ], ?_⟩
    simp only [List.countP_cons, Running.fits, decide_true, Bool.true_and, decide_eq_true_iff,
      Bool.false_eq_true, if_false, Nat.add_zero] at hroom ⊢
    split_ifs with hfits
    · -- a packet more has room in the budget of bytes
      have hle : k + 1 ≤ (configAt t c).maxBytes / packetBytes := by
        rw [Nat.le_div_iff_mul_le (by decide), Nat.add_mul, Nat.one_mul, Nat.mul_comm]
        omega
      omega
    · omega
  · simpa using h.nodup
  · simpa using h.below
  · exact h.records
  · simpa using h.shown

theorem Accounted.drop {s byteOffset : ℕ}
    (h : Accounted t c control (⟨v, c, .placed s byteOffset⟩ :: rest) pushed) :
    Accounted t c (control.bump c fun k => { k with dropped := k.dropped + 1 })
      (⟨v, c + 1, .look⟩ :: rest) pushed := by
  have htaken : taken c (⟨v, c, .placed s byteOffset⟩ :: rest) pushed =
      (packetsOf c pushed).map (·.sequence) ++ s :: rest.filterMap (Running.holding c) := by
    simp
  have htaken' : taken c (⟨v, c + 1, .look⟩ :: rest) pushed =
      (packetsOf c pushed).map (·.sequence) ++ rest.filterMap (Running.holding c) := by
    simp
  have hsub : (taken c (⟨v, c + 1, .look⟩ :: rest) pushed).Sublist
      (taken c (⟨v, c, .placed s byteOffset⟩ :: rest) pushed) := by
    rw [htaken, htaken']
    exact (List.sublist_cons_self _ _).append_left _
  constructor
  · simpa using h.entries
  · simpa using h.attempted
  · have := h.outcome
    simp at this ⊢
    omega
  · simpa using h.emitted
  · simpa using h.emittedBytes
  · obtain ⟨k, hk, hroom⟩ := h.attemptedBytes
    refine ⟨k, by rw [bump_counters]; exact hk, ?_⟩
    rw [List.countP_cons] at hroom ⊢
    simp only [Running.fits, Bool.false_eq_true, if_false, Nat.add_zero]
    omega
  · exact h.nodup.sublist hsub
  · intro s hs
    rw [bump_counters]
    exact h.below s (hsub.subset hs)
  · exact h.records
  · intro hdropped
    rw [bump_counters] at hdropped
    exact absurd hdropped (Nat.succ_ne_zero _)

theorem Accounted.push {s byteOffset : ℕ}
    (h : Accounted t c control (⟨v, c, .placed s byteOffset⟩ :: rest) pushed)
    (hsel : v.selected t control.enabled c = true)
    (hroom : overBudget (configAt t c) s byteOffset = false) :
    Accounted t c control (⟨v, c, .pushed⟩ :: rest)
      (pushed ++ [v.packet t control.launchId c s]) := by
  simp only [overBudget, Bool.or_eq_false_iff, decide_eq_false_iff_not, Nat.not_le, Nat.not_lt]
    at hroom
  obtain ⟨⟨hrecords, hbytes⟩, hfits⟩ := hroom
  have hpackets : packetsOf c (pushed ++ [v.packet t control.launchId c s]) =
      packetsOf c pushed ++ [v.packet t control.launchId c s] := by
    simp [packetsOf, Visit.packet]
  have htaken : taken c (⟨v, c, .pushed⟩ :: rest) (pushed ++ [v.packet t control.launchId c s]) =
      taken c (⟨v, c, .placed s byteOffset⟩ :: rest) pushed := by
    rw [taken, hpackets, taken]
    simp [Visit.packet]
  constructor
  · simpa using h.entries
  · simpa using h.attempted
  · have := h.outcome
    simp [hpackets] at this ⊢
    omega
  · have := h.emitted
    simp [hpackets] at this ⊢
    omega
  · have := h.emittedBytes
    simp [hpackets, Nat.mul_add] at this ⊢
    omega
  · obtain ⟨k, hk, hroom⟩ := h.attemptedBytes
    have hfit : byteOffset + packetBytes ≤ (configAt t c).maxBytes := by omega
    refine ⟨k, hk, ?_⟩
    simp [hpackets, hfit] at hroom ⊢
    omega
  · exact htaken ▸ h.nodup
  · exact htaken ▸ h.below
  · intro p hp
    rw [hpackets, List.mem_append, List.mem_singleton] at hp
    rcases hp with hp | rfl
    · exact h.records p hp
    · exact hrecords
  · intro hdropped
    have hshown := h.shown hdropped
    rw [hpackets, List.map_append, List.filter_cons]
    simp only [Running.passed, hsel, Stage.rank, List.filter_cons] at hshown ⊢
    simp only [Nat.lt_irrefl, decide_false, decide_true, Bool.true_and, Bool.false_or, le_refl,
      if_true, List.map_cons, List.map_nil] at hshown ⊢
    exact (List.perm_append_singleton _ _).trans (List.Perm.cons _ hshown)

theorem Accounted.count (h : Accounted t c control (⟨v, c, .pushed⟩ :: rest) pushed) :
    Accounted t c (control.bump c fun k => { k with emitted := k.emitted + 1 })
      (⟨v, c, .counted⟩ :: rest) pushed := by
  constructor
  · simpa using h.entries
  · simpa using h.attempted
  · simpa using h.outcome
  · have := h.emitted
    simp at this ⊢
    omega
  · simpa using h.emittedBytes
  · simpa using h.attemptedBytes
  · simpa using h.nodup
  · simpa using h.below
  · exact h.records
  · intro hdropped
    have hshown := h.shown (by simpa using hdropped)
    cases hsel : v.selected t control.enabled c <;>
      simpa [hsel] using hshown

theorem Accounted.leave (h : Accounted t c control (⟨v, c, .counted⟩ :: rest) pushed) :
    Accounted t c (control.bump c fun k => { k with emittedBytes := k.emittedBytes + packetBytes })
      (⟨v, c + 1, .look⟩ :: rest) pushed := by
  constructor
  · simpa using h.entries
  · simpa using h.attempted
  · simpa using h.outcome
  · simpa using h.emitted
  · have := h.emittedBytes
    simp [Nat.mul_add] at this ⊢
    omega
  · simpa using h.attemptedBytes
  · simpa using h.nodup
  · simpa using h.below
  · exact h.records
  · intro hdropped
    have hshown := h.shown (by simpa using hdropped)
    cases hsel : v.selected t control.enabled c <;>
      simpa [hsel] using hshown

end Here

/-! ### Every run of the device -/

/-- A visit that has begun with a configuration selected it. -/
def Running.Chosen (t : Tables) (mask : Mask) (r : Running) : Prop :=
  r.visit.enters t ∧ (r.stage ≠ .look → r.visit.selected t mask r.config = true)

theorem Accounted.here (h : Accounted t r.config control (r :: rest) pushed)
    (hr : r.Chosen t control.enabled) :
    Accounted t r.config (r.step t control).1 ((r.step t control).2.1 :: rest)
      (pushed ++ (r.step t control).2.2.toList) := by
  obtain ⟨v, c, stage⟩ := r
  cases stage with
  | look =>
    simp only [Running.step]
    split_ifs with hsel hmark
    · simpa using h.skip hsel
    · have := h.look (by simpa using hsel)
      rw [if_pos hmark] at this
      simpa using this
    · have := h.look (by simpa using hsel)
      rw [if_neg hmark] at this
      simpa using this
  | entered => simpa [Running.step] using h.sequence (hr.2 (by simp))
  | sequenced s => simpa [Running.step] using h.place
  | placed s byteOffset =>
    simp only [Running.step]
    split_ifs with hover
    · simpa using h.drop
    · exact h.push (hr.2 (by simp)) (by simpa using hover)
  | pushed => simpa [Running.step] using h.count
  | counted => simpa [Running.step] using h.leave

theorem step_chosen (hr : r.Chosen t control.enabled) :
    (r.step t control).2.1.Chosen t control.enabled := by
  obtain ⟨v, c, stage⟩ := r
  obtain ⟨henters, hsel⟩ := hr
  cases stage with
  | look =>
    simp only [Running.step]
    split_ifs with hselected hmark
    · exact ⟨henters, fun h => absurd rfl h⟩
    · exact ⟨henters, fun _ => by simpa using hselected⟩
    · exact ⟨henters, fun _ => by simpa using hselected⟩
  | placed s byteOffset =>
    simp only [Running.step]
    split_ifs
    · exact ⟨henters, fun h => absurd rfl h⟩
    · exact ⟨henters, fun _ => hsel (by simp)⟩
  | counted => exact ⟨henters, fun h => absurd rfl h⟩
  | entered => exact ⟨henters, fun _ => hsel (by simp)⟩
  | sequenced s => exact ⟨henters, fun _ => hsel (by simp)⟩
  | pushed => exact ⟨henters, fun _ => hsel (by simp)⟩

structure OnDevice (t : Tables) (control : PlanLaunchControl) (visits : List Running)
    (pushed : List PlanObservation) : Prop where
  accounted : ∀ c, Accounted t c control visits pushed
  chosen : ∀ r ∈ visits, r.Chosen t control.enabled
  /-- A packet is that of a visit. -/
  packets : ∀ p ∈ pushed, ∃ r ∈ visits,
    r.visit.selected t control.enabled p.configIndex = true ∧
    p = r.visit.packet t control.launchId p.configIndex p.sequence

theorem onDevice_nil (t : Tables) (launchId : ℕ) (enabled : Mask) :
    OnDevice t { launchId, enabled } [] [] := by
  refine ⟨fun c => ?_, by simp, by simp⟩
  constructor <;> simp [packetsOf, taken]

theorem OnDevice.step {s s' : PlanLaunchControl × List Running × List PlanObservation}
    (h : OnDevice t s.1 s.2.1 s.2.2) (hstep : DeviceStep t s s') :
    OnDevice t s'.1 s'.2.1 s'.2.2 ∧ s'.1.enabled = s.1.enabled ∧ s'.1.launchId = s.1.launchId := by
  cases hstep with
  | @enter control visits pushed v hv =>
    refine ⟨⟨fun c => ?_, fun r hr => ?_, fun p hp => ?_⟩, rfl, rfl⟩
    · exact ((h.accounted c).enter v).perm (List.perm_append_singleton _ _).symm
    · rcases List.mem_append.mp hr with hr | hr
      · exact h.chosen r hr
      · obtain rfl := List.mem_singleton.mp hr
        exact ⟨hv, fun hstage => absurd rfl hstage⟩
    · obtain ⟨r, hr, hpacket⟩ := h.packets p hp
      exact ⟨r, List.mem_append_left _ hr, hpacket⟩
  | @advance control before after pushed r hlt =>
    obtain ⟨⟨henabled, hid⟩, -⟩ := step_control t control r
    have hr := h.chosen r (by simp)
    refine ⟨⟨fun c => ?_, fun r' hr' => ?_, fun p hp => ?_⟩, henabled, hid⟩
    · refine Accounted.perm ?_ List.perm_middle.symm
      have hhead : Accounted t c control (r :: (before ++ after)) pushed :=
        (h.accounted c).perm List.perm_middle
      by_cases hc : c = r.config
      · subst hc
        exact hhead.here hr
      · exact hhead.elsewhere hc
    · rw [henabled]
      rcases List.mem_append.mp hr' with hr' | hr'
      · exact h.chosen r' (List.mem_append_left _ hr')
      rcases List.mem_cons.mp hr' with rfl | hr'
      · exact step_chosen hr
      · exact h.chosen r' (List.mem_append_right _ (List.mem_cons_of_mem _ hr'))
    · rw [henabled, hid]
      have hvisit := (step_moves t control r).visit
      rcases List.mem_append.mp hp with hp | hp
      · obtain ⟨r', hr', hpacket⟩ := h.packets p hp
        rcases List.mem_append.mp hr' with hr' | hr'
        · exact ⟨r', List.mem_append_left _ hr', hpacket⟩
        rcases List.mem_cons.mp hr' with rfl | hr'
        · exact ⟨_, List.mem_append_right _ List.mem_cons_self, by rw [hvisit]; exact hpacket⟩
        · exact ⟨r', List.mem_append_right _ (List.mem_cons_of_mem _ hr'), hpacket⟩
      · obtain ⟨s, byteOffset, hstage, -, rfl⟩ := step_packet (Option.mem_toList.mp hp)
        refine ⟨_, List.mem_append_right _ List.mem_cons_self, ?_⟩
        rw [hvisit]
        exact ⟨hr.2 (by rw [hstage]; simp), rfl⟩

/-! ### Budgets and completion -/

/-- No order of the visits exceeds a budget. -/
theorem Accounted.budget (h : Accounted t c control visits pushed) :
    (packetsOf c pushed).length ≤ (configAt t c).maxRecords ∧
      (packetsOf c pushed).length * packetBytes ≤ (configAt t c).maxBytes := by
  constructor
  · -- the numbers of the packets are different and below the limit
    have hnodup : ((packetsOf c pushed).map (·.sequence)).Nodup := h.nodup.of_append_left
    have hsub : ((packetsOf c pushed).map (·.sequence)).Subperm
        (List.range (configAt t c).maxRecords) := List.subperm_of_subset hnodup fun s hs => by
      obtain ⟨p, hp, rfl⟩ := List.mem_map.mp hs
      exact List.mem_range.mpr (h.records p hp)
    simpa using hsub.length_le
  · obtain ⟨k, -, hroom⟩ := h.attemptedBytes
    have hle : (packetsOf c pushed).length ≤ (configAt t c).maxBytes / packetBytes := by omega
    exact (Nat.le_div_iff_mul_le (by decide)).mp hle

theorem selected_lt {mask : Mask} {v : Visit} (h : v.selected t mask c = true) :
    c < t.configs.length := by
  by_contra hge
  rw [Visit.selected, List.getElem?_eq_none (Nat.le_of_not_lt hge)] at h
  cases h

structure Settled (t : Tables) (c : ℕ) (control : PlanLaunchControl) (visits : List Running)
    (pushed : List PlanObservation) : Prop where
  entries : (control.counters c).entries =
    visits.countP fun r => r.marked t c && r.visit.selected t control.enabled c
  attempted : (control.counters c).attempted =
    visits.countP fun r => r.visit.selected t control.enabled c
  outcome : (control.counters c).attempted =
    (control.counters c).emitted + (control.counters c).dropped
  emitted : (packetsOf c pushed).length = (control.counters c).emitted
  emittedBytes : packetBytes * (control.counters c).emitted = (control.counters c).emittedBytes
  nodup : ((packetsOf c pushed).map (·.sequence)).Nodup
  shown : (control.counters c).dropped = 0 →
    ((packetsOf c pushed).map PlanObservation.shape).Perm
      ((visits.filter fun r => r.visit.selected t control.enabled c).map fun r =>
        r.visit.packet t control.launchId c 0)

theorem OnDevice.settled (h : OnDevice t control visits pushed)
    (hdone : ∀ r ∈ visits, r.done t = true) (c : ℕ) : Settled t c control visits pushed := by
  have hacc := h.accounted c
  have hpassed : ∀ rank, ∀ r ∈ visits,
      r.passed t control.enabled c rank = r.visit.selected t control.enabled c := by
    intro rank r hr
    have hlt := hdone r hr
    rw [Running.done, decide_eq_true_iff] at hlt
    rw [Running.passed]
    cases hsel : r.visit.selected t control.enabled c with
    | false => rfl
    | true =>
      have hc : c < r.config := (selected_lt hsel).trans_le hlt
      simp [hc]
  have hbetween : ∀ low high, 0 < low → visits.countP (Running.between c low high) = 0 := by
    intro low high hlow
    rw [List.countP_eq_zero]
    intro r hr hbetween
    simp only [Running.between, Bool.and_eq_true, decide_eq_true_iff] at hbetween
    obtain ⟨⟨rfl, hrank⟩, -⟩ := hbetween
    have hstage : r.stage ≠ .look := by
      intro hlook
      rw [hlook] at hrank
      exact absurd hrank (Nat.not_le.mpr hlow)
    have hlt := selected_lt ((h.chosen r hr).2 hstage)
    have hle := hdone r hr
    rw [Running.done, decide_eq_true_iff] at hle
    omega
  have hemitted : (packetsOf c pushed).length = (control.counters c).emitted := by
    rw [hacc.emitted, hbetween 4 4 (by omega), Nat.add_zero]
  refine ⟨?_, ?_, ?_, hemitted, ?_, hacc.nodup.of_append_left, fun hdropped => ?_⟩
  · rw [hacc.entries]
    exact List.countP_congr fun r hr => by rw [hpassed 1 r hr]
  · rw [hacc.attempted]
    exact List.countP_congr fun r hr => by rw [hpassed 2 r hr]
  · rw [hacc.outcome, hbetween 2 3 (by omega), hemitted, Nat.add_zero]
  · rw [← hemitted, hacc.emittedBytes, hbetween 4 5 (by omega), Nat.mul_zero, Nat.add_zero]
  · have hshown := hacc.shown hdropped
    rwa [List.filter_congr fun r hr => hpassed 4 r hr] at hshown

end CuTracer.PlanRuntime
