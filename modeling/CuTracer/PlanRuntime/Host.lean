import CuTracer.Capture.Receiver
import CuTracer.PlanRuntime.Callback

/-! The host side of a plan in one context: launches take a slot with a control for the
device, completions copy its counters and free it, packets are checked and written, and a
trace is finished with a record of whether all of its packets were seen. A call that
throws keeps what it had changed before. The JSON library writes the documents and stands
as a parameter; so do the answers of the sink and of the trace writer. -/

namespace CuTracer.PlanRuntime

open Plan BinarySearch
open Capture.Receiver (Refusal)

/-! ### Launches -/

/-- A runtime identity: the document, and the values of its fields, or what reading them
throws. -/
structure Identity where
  document : Json
  launchId : Except String ℕ
  kernelOrdinal : Except String ℕ
  grid : Except String Dim3
  block : Except String Dim3
  launch : Except String Json
  streamHandle : Except String ℕ
  graphNodeHandle : Except String ℕ

/-- A function that a plan was prepared for. -/
structure Bound where
  kernel : ℕ
  module : ℕ
  configs : List ℕ
  gaps : Dict ℕ String := Dict.empty
  points : Dict ℕ String := Dict.empty

structure Counts where
  expectedEntries : ℕ := 0
  received : ℕ := 0
  written : ℕ := 0
  jsonBytes : ℕ := 0
  selected : Bool := false
  error : String := ""
  device : PlanDeviceCounters := {}

structure Launch where
  identity : Identity
  applied : Json := .null
  slot : ℕ := kPlanLaunchSlots
  completed : Bool := false
  drained : Bool := false
  countersAvailable : Bool := false
  counts : Dict ℕ Counts
  records : List (ℕ × ℕ) := []

/-- The state of a context; the slots are in device memory. -/
structure Context where
  slots : ℕ → PlanLaunchControl := fun _ => {}
  occupied : ℕ → Bool := fun _ => false
  bound : Dict ℕ Bound := Dict.empty
  skipped : Dict ℕ ℕ := Dict.empty
  owners : Dict ℕ ℕ := Dict.empty
  injected : List (ℕ × ℕ) := []
  launches : Dict ℕ Launch := Dict.empty

def LaunchSelector.selects (launches : LaunchSelector) (ordinal : ℕ) : Bool :=
  launches.all || binarySearch launches.ordinals ordinal

section

variable (t : Tables) (plan : CanonicalPlan)

def wordNames (point : RuntimePoint) (config : ℕ) : List String :=
  ((point.words.take planCaptureWords).zipIdx.filter fun word =>
    (point.device.wordMasks config).getLsbD word.2).map fun word => word.1.name

def pointMetadata (id config : ℕ) (bytes : String) (point : RuntimePoint) : Json :=
  .obj [("entry_marker", .bool (config ∈ point.entries)), ("expected_bytes", .str bytes),
    ("function", .str point.key.2.1), ("pc", .str (hexPc point.key.2.2.1)),
    ("phase", .str (if point.key.2.2.2 = .before then "before" else "after")),
    ("point_id", .int id),
    ("predicate_policy",
      .str (if enabled point.device.reachedPolicy config then "reached_lanes"
        else "executed_lanes")),
    ("registers", strs (wordNames point config))]

def actualPoints (bound : Bound) (index : ℕ) : List Json :=
  bound.points.entries.filterMap fun p =>
    match t.points[p.1]? with
    | none => none
    | some point =>
      if enabled point.device.configurations index then some (pointMetadata p.1 index p.2 point)
      else none

/-- What `expected_entries` finds in an identity. -/
def Identity.expectedEntries (identity : Identity) (config : Config) : Except String ℕ := do
  let grid ← identity.grid
  let block ← identity.block
  (PlanRuntime.expectedEntries config grid block).mapError PlanError.what

structure Preparing where
  counts : Dict ℕ Counts := Dict.empty
  selected : Mask := Mask.clear
  configurations : List Json := []

def prepareCounts (bound : Bound) (identity : Identity) (ordinal index : ℕ) (config : Config) :
    Except String Counts := do
  match bound.gaps.get? index with
  | some gap => return { error := gap }
  | none =>
    if LaunchSelector.selects config.launches ordinal then do
      let expectedEntries ← identity.expectedEntries config
      return {
        expectedEntries
        selected := true
        error := if expectedEntries = 0 then "no_selected_warps_in_launch" else "" }
    else return {}

def prepareConfig (bound : Bound) (identity : Identity) (ordinal : ℕ) (p : Preparing) (index : ℕ) :
    Except String Preparing := do
  match t.configs[index]? with
  | none => return p
  | some config =>
    let counts ← prepareCounts bound identity ordinal index config.source
    return {
      counts := p.counts.insert index counts
      selected := if counts.selected then enable p.selected index else p.selected
      configurations := p.configurations ++ [.obj [
        ("actual_points", .arr (actualPoints t bound index)),
        ("config_id", .str config.source.id), ("config_index", .int index),
        ("configuration", config.source.toJson),
        ("expected_entry_warps", .int counts.expectedEntries),
        ("gap", .str ((bound.gaps.get? index).getD "")),
        ("requests", strs config.source.requests), ("selected", .bool counts.selected)]] }

def applied (identity : Identity) (id : ℕ) (launch : Json) (configurations : List Json) : Json :=
  .obj [("backend", .str "cutracer.plan-runtime/1"),
    ("budget_accounting", .str "device_packet_and_json_record_bytes"),
    ("canonical_sha256", .str plan.canonicalSha256), ("configs", .arr configurations),
    ("file_sha256", .str plan.sourceSha256), ("launch", launch), ("launch_id", .int id),
    ("packet_bytes", .int packetBytes), ("packet_version", .int 1),
    ("runtime_identity", identity.document), ("schema", .str "cutracer.plan-applied/v1"),
    ("type", .str "plan_applied")]

variable (state : Context)

/-- The first slot that no launch has taken. -/
def freeSlot : Option ℕ :=
  (List.range kPlanLaunchSlots).find? fun slot => !state.occupied slot

def Mask.any (mask : Mask) : Bool := (List.range kPlanMaskWords).any fun word => mask word ≠ 0#64

def Context.control (slot id : ℕ) (selected : Mask) : Context :=
  { state with
    occupied := Function.update state.occupied slot true
    slots := Function.update state.slots slot { launchId := id, enabled := selected } }

/-- What a launch checks before it changes anything. -/
def Context.checkLaunch (root : ℕ) (identity : Identity) :
    Except String (ℕ × Preparing) := do
  match state.bound.get? root with
  | none => .error "Selected kernel lacks a prepared plan"
  | some bound =>
    if kPlanLaunchSlots ≤ state.launches.entries.length then
      .error "Unfinalized plan launch budget exceeded"
    else do
      let id ← identity.launchId
      let ordinal ← identity.kernelOrdinal
      let prepared ← bound.configs.foldlM (prepareConfig t bound identity ordinal) {}
      return (id, prepared)

/-- A slot for the control of a launch, if any configuration is selected. -/
def Context.takeSlot (id : ℕ) (selected : Mask) : Except String (Option ℕ × Context) :=
  if selected.any then
    match freeSlot state with
    | none => .error "Plan launch slots exhausted before CUDA completion"
    | some slot => .ok (some slot, state.control slot id selected)
  else .ok (none, state)

/-- `launch`: the document of what was applied and the slot whose control the kernel gets. -/
def Context.launch (state : Context) (root : ℕ) (identity : Identity) (sink : Except String Unit) :
    Except String (Json × Option ℕ) × Context :=
  match state.checkLaunch t root identity with
  | .error what => (.error what, state)
  | .ok (id, prepared) =>
    match state.takeSlot id prepared.selected with
    | .error what => (.error what, state)
    | .ok (slot, state) =>
      match identity.launch with
      | .error what => (.error what, state)
      | .ok launch =>
        let document := applied plan identity id launch prepared.configurations
        if id ∈ state.launches.keys then (.error "Duplicate actual plan launch ID", state)
        else
          let state := { state with
            launches := state.launches.insert id {
              identity
              applied := document
              slot := slot.getD kPlanLaunchSlots
              counts := prepared.counts } }
          -- from here on the launch is recorded, whatever is thrown
          match identity.streamHandle, identity.graphNodeHandle, sink with
          | .error what, _, _ => (.error what, state)
          | _, .error what, _ => (.error what, state)
          | _, _, .error what => (.error what, state)
          | .ok _, .ok _, .ok _ => (.ok (document, slot), state)

/-! ### Completion -/

def Launch.readCounters (control : PlanLaunchControl) (launch : Launch) : Launch :=
  { launch with
    counts := launch.counts.mapValues fun index counts =>
      { counts with device := control.counters index }
    slot := kPlanLaunchSlots }

def Context.deviceComplete (id : ℕ) (completed drained : Bool) : Context :=
  match state.launches.get? id with
  | none => state
  | some launch =>
    let launch := { launch with completed, drained }
    if completed && drained then
      let launch := { launch with countersAvailable := true }
      if launch.slot < kPlanLaunchSlots then
        { state with
          launches := state.launches.insert id (launch.readCounters (state.slots launch.slot))
          occupied := Function.update state.occupied launch.slot false }
      else { state with launches := state.launches.insert id launch }
    else { state with launches := state.launches.insert id launch }

/-- `disable` in a context: what is not in error yet gets the reason. -/
def Counts.fail (reason : String) (counts : Counts) : Counts :=
  { counts with error := if counts.error = "" then reason else counts.error }

def Context.disable (reason : String) : Context :=
  { state with
    launches := state.launches.mapValues fun _ launch =>
      { launch with counts := launch.counts.mapValues fun _ counts => counts.fail reason } }

/-! ### Packets -/

/-- How a packet is consumed; a record that was handed to the writer may be rejected. -/
inductive Consumed where
  | refused (refusal : Refusal)
  | recorded (encoded : String)
  | threw (what : String)

/-- The host's check of a packet against the launch, the point and the configuration. -/
def bindingOk (launch : Launch) (point : RuntimePoint) (config : Config) (grid : Dim3)
    (threads : ℕ) (packet : PlanObservation) : Bool :=
  let geometry := inside grid packet.cta &&
    (config.capture.ctas = [] || binarySearch config.capture.ctas packet.cta) &&
    packet.warpInCta < warpCount threads &&
    (config.capture.warps = [] || binarySearch config.capture.warps packet.warpInCta)
  let blockMask := blockMask (if geometry then liveLanes threads packet.warpInCta else 0)
  let laneMask := laneMask config.capture.lanes
  (launch.counts.get? packet.configIndex).any (·.selected) && geometry &&
    packet.reachedMask &&& ~~~blockMask = 0#32 &&
    packet.selectedMask = packet.reachedMask &&& laneMask &&
    packet.sequence < config.budget.maxRecords &&
    enabled point.device.configurations packet.configIndex &&
    packet.wordCount = point.words.length && packet.wordCount ≤ planCaptureWords &&
    packet.wordMask = point.device.wordMasks packet.configIndex &&
    packet.reachedMask ≠ 0#32 && packet.executedMask &&& ~~~packet.reachedMask = 0#32 &&
    packet.selectedMask ≠ 0#32 && packet.selectedMask &&& ~~~packet.reachedMask = 0#32 &&
    packet.validMask =
      if enabled point.device.reachedPolicy packet.configIndex then packet.selectedMask
      else packet.selectedMask &&& packet.executedMask

def isPredicate : RegisterBank → Bool
  | .P => true
  | .UP => true
  | _ => false

/-- A predicate word is 0 or 1 in every valid lane. -/
def wordOk (packet : PlanObservation) (word : Register × ℕ) : Bool :=
  (List.range 32).all fun lane =>
    !(packet.validMask.getLsbD lane && 1 < (packet.values word.2 lane).toNat &&
      isPredicate word.1.bank)

def packetWords (point : RuntimePoint) (packet : PlanObservation) : List (Register × ℕ) :=
  (point.words.take packet.wordCount).zipIdx.filter fun word => packet.wordMask.getLsbD word.2

def lanesJson (packet : PlanObservation) (word : ℕ) : Json :=
  .arr ((List.range 32).map fun lane =>
    if packet.validMask.getLsbD lane then .str (hexPc (packet.values word lane).toNat) else .null)

def maskJson (mask : BitVec 32) : Json := .str (hexPc mask.toNat)

def recordJson (launch : Json) (config : Config) (point : RuntimePoint)
    (packet : PlanObservation) : Json :=
  .obj [("canonical_sha256", .str plan.canonicalSha256), ("config_id", .str config.id),
    ("config_index", .int packet.configIndex),
    ("cta", ints packet.cta.coordinates), ("executed_mask", maskJson packet.executedMask),
    ("grid_launch_id", .int packet.kernelLaunchId), ("launch", launch),
    ("point_id", .int packet.pointId), ("reached_mask", maskJson packet.reachedMask),
    ("registers", .obj ((packetWords point packet).map fun word =>
      (word.1.name, lanesJson packet word.2))),
    ("selected_mask", maskJson packet.selectedMask), ("sequence", .int packet.sequence),
    ("type", .str "plan_observation"), ("valid_mask", maskJson packet.validMask),
    ("version", .int 1), ("warp", .int packet.warpInCta), ("wire_bytes", .int packetBytes)]

def Launch.setCounts (launch : Launch) (index : ℕ) (counts : Counts) : Launch :=
  { launch with counts := launch.counts.insert index counts }

def kRecordsMax : ℕ := 1000000

/-- A packet that passed the checks: it is counted, written, and counted again. -/
def Launch.record (dump : Json → String) (launch : Launch) (key : Json) (counts : Counts)
    (config : Config) (point : RuntimePoint) (packet : PlanObservation) (accepted : Bool) :
    Consumed × Launch :=
  let counts := { counts with received := counts.received + 1 }
  let record := (packet.configIndex, packet.sequence)
  if kRecordsMax ≤ launch.records.length then
    (.refused .sequence, launch.setCounts packet.configIndex
      { counts with error := "record_identity_duplicate_or_budget" })
  else if launch.records.contains record then
    (.refused .sequence, launch.setCounts packet.configIndex
      { counts with error := "record_identity_duplicate_or_budget" })
  else
    let launch := { launch with records := launch.records ++ [record] }
    if (packetWords point packet).all (wordOk packet) = false then
      (.refused .predicateWord, launch.setCounts packet.configIndex
        { counts with error := "predicate_word_out_of_range" })
    else
      let encoded := dump (recordJson plan key config point packet)
      let size := encoded.utf8ByteSize + 1
      if config.budget.maxRecords ≤ counts.written ∨
          config.budget.maxBytes - min counts.jsonBytes config.budget.maxBytes < size then
        (.refused .jsonBudget, launch.setCounts packet.configIndex
          { counts with error := "json_record_budget_exhausted" })
      else if accepted = false then
        (.recorded encoded, launch.setCounts packet.configIndex
          { counts with error := "trace_writer_rejected_record" })
      else
        (.recorded encoded, launch.setCounts packet.configIndex
          { counts with written := counts.written + 1, jsonBytes := counts.jsonBytes + size })

/-- `consume` where the plan is not disabled. -/
def Context.consume (dump : Json → String) (state : Context) (packet : PlanObservation)
    (accepted : Bool) : Consumed × Context :=
  match state.launches.get? packet.kernelLaunchId, t.points[packet.pointId]?,
      t.configs[packet.configIndex]? with
  | some launch, some point, some config =>
    if packet.version ≠ 1 then (.refused .identity, state)
    else
      match launch.identity.grid, launch.identity.block with
      | .error what, _ => (.threw what, state)
      | _, .error what => (.threw what, state)
      | .ok grid, .ok block =>
        match block.volume with
        | .error e => (.threw e.what, state)
        | .ok threads =>
          match launch.counts.get? packet.configIndex with
          | none => (.refused .masksOrBinding, state)
          | some counts =>
            if bindingOk launch point config.source grid threads packet = false then
              (.refused .masksOrBinding, state)
            else
              let (consumed, launch) := launch.record plan dump
                (launch.identity.launch.toOption.getD .null) counts config.source point packet
                accepted
              (consumed, { state with
                launches := state.launches.insert packet.kernelLaunchId launch })
  | _, _, _ => (.refused .identity, state)

/-! ### The end of a trace -/

variable (countersAvailable : Bool)

def Counts.ok (counts : Counts) : Bool :=
  let d := counts.device
  counts.selected && counts.error = "" && countersAvailable && 0 < counts.expectedEntries &&
    d.entries = counts.expectedEntries && d.dropped = 0 && d.attempted = d.emitted &&
    d.emitted = counts.received && counts.received = counts.written &&
    d.emittedBytes = counts.received * packetBytes

def Counts.incomplete (counts : Counts) : Bool :=
  counts.error ≠ "" || (counts.selected && !counts.ok countersAvailable)

def Counts.status (counts : Counts) : String :=
  if counts.incomplete countersAvailable then "incomplete"
  else if counts.selected then "complete" else "not_selected"

def Launch.complete (disabled : Bool) (launch : Launch) : Bool :=
  !disabled && launch.completed && launch.drained && launch.countersAvailable &&
    launch.counts.values.all fun counts => !counts.incomplete launch.countersAvailable

def configCompletion (index : ℕ) (counts : Counts) (config : Config) : Json :=
  let d := counts.device
  .obj [("attempted_bytes", .int d.attemptedBytes), ("attempted_records", .int d.attempted),
    ("config_id", .str config.id), ("config_index", .int index),
    ("device_bytes", .int d.emittedBytes), ("device_dropped", .int d.dropped),
    ("device_records", .int d.emitted), ("entry_warps", .int d.entries),
    ("error", .str counts.error), ("expected_entry_warps", .int counts.expectedEntries),
    ("json_bytes", .int counts.jsonBytes), ("received_records", .int counts.received),
    ("selected", .bool counts.selected), ("status", .str (counts.status countersAvailable)),
    ("written_records", .int counts.written)]

def completion (disabled : Bool) (id : ℕ) (launch : Launch) : Json :=
  .obj [("canonical_sha256", .str plan.canonicalSha256),
    ("channel_drained", .bool launch.drained), ("complete", .bool (launch.complete disabled)),
    ("configs", .arr (launch.counts.entries.filterMap fun e => (t.configs[e.1]?).map fun config =>
      configCompletion launch.countersAvailable e.1 e.2 config.source)),
    ("counters_available", .bool launch.countersAvailable), ("grid_launch_id", .int id),
    ("kernel_completed", .bool launch.completed),
    ("launch", launch.identity.launch.toOption.getD .null),
    ("schema", .str "cutracer.plan-completion/v1"), ("trace_footer_required", .bool true),
    ("type", .str "plan_capture_completion")]

/-- How a trace is finished; the sink may throw after the metadata was written. -/
inductive Finished where
  | missing
  | described (complete : Bool) (metadata : Json) (sink : Except String Unit)

def Context.finishTrace (disabled : Bool) (state : Context) (id : ℕ) (sink : Except String Unit) :
    Finished × Context :=
  match state.launches.get? id with
  | none => (.missing, state)
  | some launch =>
    (.described (launch.complete disabled) (completion t plan disabled id launch) sink,
      match sink with
      | .error _ => state
      | .ok _ => { state with launches := state.launches.filter fun k _ => k ≠ id })

end

end CuTracer.PlanRuntime
