import CuTracer.Plan.Contracts

/-! The plan loader, from the bytes of a file to the canonical plan. A `std::map` is
filled in the order of the source and sorted by its key where it is iterated. -/

namespace CuTracer.Plan

variable (v : Vendor)

/-! ### Observations -/

def emplaceRegister (registers : List Register) (item : Json) :
    Except PlanError (List Register) := do
  let r ← reg item
  if r.name ∈ registers.map Register.name then fail "duplicate register"
  else .ok (registers ++ [r])

def observation (j : Json) : Except PlanError Observation :=
  if contains j "kind" = false then fail "observation needs a kind"
  else do
    let kind ← text (← member j "kind")
    if kind = "reg_trace" then do
      keys j ["kind", "registers"]
      let items ← array (← member j "registers") 512
      let registers ← items.foldlM emplaceRegister []
      return ⟨.registers, sortOn Register.name registers, 0, 0⟩
    else if kind = "mem_addr_trace" ∨ kind = "mem_value_trace" then do
      keys j ["kind", "mref"]
      let mref ← integer (← member j "mref") 0 kExactIntegerMax
      return ⟨if kind = "mem_addr_trace" then .memoryAddress else .memoryValue, [], mref, 0⟩
    else if kind = "random_delay" then do
      keys j ["kind", "delay_ns"]
      let delay ← integer (← member j "delay_ns") 1 (2 ^ 32 - 1)
      return ⟨.delay, [], 0, delay⟩
    else do
      keys j ["kind"]
      if kind = "opcode_only" then return ⟨.opcode, [], 0, 0⟩
      else if kind = "tma_trace" then return ⟨.tma, [], 0, 0⟩
      else fail ("unknown observation kind " ++ kind)

def Observation.key (o : Observation) : ObservationKind × ℕ :=
  (o.kind, if o.kind = .memoryAddress ∨ o.kind = .memoryValue then o.mref else 0)

def joinObservation (it candidate : Observation) : Except PlanError Observation :=
  if it.kind = .registers then
    let regs := candidate.registers.foldl (emplace Register.name)
      (it.registers.foldl (emplace Register.name) [])
    if 512 < regs.length then fail "register union exceeds limit"
    else .ok { it with registers := sortOn Register.name regs }
  else if it.kind = .delay ∧ it.delayNs ≠ candidate.delayNs then
    fail "conflicting delay at one point"
  else .ok it

def mergeObservation (dest : List Observation) (candidate : Observation) :
    Except PlanError (List Observation) :=
  if candidate.key ∉ dest.map Observation.key ∧ kObservationsMax ≤ dest.length then
    fail "observation union exceeds limit"
  else emplaceWith Observation.key joinObservation candidate dest

def mergeObservations (dest incoming : List Observation) :
    Except PlanError (List Observation) := do
  let merged ← incoming.foldlM mergeObservation dest
  return sortOn (fun o => v.dump false (encode o)) merged

/-! ### Points -/

variable (j : Json)

def point : Except PlanError Point := do
  keys j ["function", "pc", "expected_bytes", "phase", "predicate_policy", "observations"]
  let function ← text (← member j "function")
  let pc ← pc (← member j "pc")
  let expectedBytes ← text (← member j "expected_bytes")
  if expectedBytes.utf8ByteSize < 16 ∨ 64 < expectedBytes.utf8ByteSize ∨
      expectedBytes.utf8ByteSize % 2 ≠ 0 ∨ hex expectedBytes.toList = false then
    fail "instruction bytes must be 8 to 32 lowercase hex bytes"
  else do
    let phase ← text (← member j "phase")
    if phase ≠ "before" ∧ phase ≠ "after" then fail "unknown phase"
    else do
      let predicate ← text (← member j "predicate_policy")
      if predicate ≠ "executed_lanes" ∧ predicate ≠ "reached_lanes" then
        fail "unknown predicate policy"
      else do
        let items ← array (← member j "observations") kObservationsMax
        let incoming ← items.mapM observation
        let observations ← mergeObservations v [] incoming
        return ⟨function, pc, expectedBytes, if phase = "before" then .before else .after,
          if predicate = "executed_lanes" then .executed else .reached, observations⟩

/-- Phases are ordered as the enumeration lists them. -/
def Phase.rank : Phase → ℕ
  | .before => 0
  | .after => 1

def Point.key (p : Point) : String ×ₗ (ℕ ×ₗ ℕ) :=
  toLex (p.function, toLex (p.pc, p.phase.rank))

def joinPoint (it candidate : Point) : Except PlanError Point :=
  if it.expectedBytes ≠ candidate.expectedBytes ∨ it.predicate ≠ candidate.predicate then
    fail "conflicting bytes or predicate policy at one point"
  else do
    let observations ← mergeObservations v it.observations candidate.observations
    return { it with observations }

/-! ### Configurations -/

def launchSelector (launches : Json) : Except PlanError LaunchSelector :=
  if contains launches "mode" = false then fail "launch selector needs mode"
  else do
    let mode ← text (← member launches "mode")
    if mode = "all" then do
      keys launches ["mode"]
      return ⟨true, []⟩
    else if mode = "per_context_kernel_ordinal" then do
      keys launches ["mode", "indices"]
      let ordinals ← integers (← member launches "indices") kExactIntegerMax
      return ⟨false, ordinals⟩
    else fail "unknown launch selector mode"

def cta : Json → Except PlanError Cta
  | .arr [x, y, z] => do
    let x ← integer x 0 kExactIntegerMax
    let y ← integer y 0 kExactIntegerMax
    let z ← integer z 0 kExactIntegerMax
    return toLex (x, toLex (y, z))
  | _ => fail "CTA selection needs three coordinates"

def ctas : Except PlanError (List Cta) := sortedArray cta j

/-- A selection: the string "all", or what `values` reads from an array. -/
def selection {α : Type} (values : Json → Except PlanError (List α)) (j : Json) :
    Except PlanError (List α) :=
  match j with
  | .str s => do
    constant (.str s) "all"
    return []
  | _ => values j

def captureSelector (capture : Json) : Except PlanError CaptureSelector := do
  keys capture ["ctas", "warps", "lanes"]
  let ctas ← selection ctas (← member capture "ctas")
  let warps ← selection (integers · kExactIntegerMax) (← member capture "warps")
  let lanes ← selection (integers · 31) (← member capture "lanes")
  return ⟨ctas, warps, lanes⟩

def budget : Except PlanError Budget := do
  keys j ["max_records", "max_bytes", "on_limit"]
  constant (← member j "on_limit") "mark_incomplete"
  let maxRecords ← integer (← member j "max_records") 1 kExactIntegerMax
  let maxBytes ← integer (← member j "max_bytes") 1 kExactIntegerMax
  return ⟨maxRecords, maxBytes⟩

/-- The next point of a configuration, with the count of the points of the plan. -/
def addPoint (state : List Point × ℕ) (item : Json) : Except PlanError (List Point × ℕ) :=
  if kPointsMax < state.2 + 1 then fail "total point limit exceeded"
  else do
    let candidate ← point v item
    let points ← emplaceWith Point.key (joinPoint v) candidate state.1
    return (points, state.2 + 1)

def configFields : Except PlanError Config := do
  keys j ["config_id", "requests", "launches", "capture", "budget", "points"]
  let id ← text (← member j "config_id")
  let requests ← strings (← member j "requests")
  let launches ← launchSelector (← member j "launches")
  let capture ← captureSelector (← member j "capture")
  let budget ← budget (← member j "budget")
  return ⟨id, requests, launches, capture, budget, []⟩

def config (pointCount : ℕ) : Except PlanError (Config × ℕ) := do
  let result ← configFields j
  let items ← array (← member j "points") kPointsMax
  let (points, pointCount) ← items.foldlM (addPoint v) ([], pointCount)
  return ({ result with points := sortOn Point.key points }, pointCount)

/-! ### Kernels -/

/-- The configurations and the points of a plan that were read so far. -/
abbrev Counts := ℕ × ℕ

/-- `sm_` and a number, with at most one of the letters `a` and `f` after it. -/
def target (j : Json) : Except PlanError String := do
  let target ← text j
  if target.utf8ByteSize < 4 then fail "invalid target"
  else
    let arch := target.toList.drop 3
    let arch := if arch.getLast? = some 'a' ∨ arch.getLast? = some 'f' then arch.dropLast else arch
    if target.toList.take 3 ≠ ['s', 'm', '_'] ∨ arch = [] ∨ arch.all Char.isDigit = false then
      fail "invalid target"
    else .ok target

def addConfig (state : List Config × Counts) (item : Json) :
    Except PlanError (List Config × Counts) :=
  if kConfigsMax < state.2.1 + 1 then fail "total config limit exceeded"
  else do
    let (config, pointCount) ← config v item state.2.2
    return (state.1 ++ [config], (state.2.1 + 1, pointCount))

def kernelFields : Except PlanError Kernel := do
  keys j ["match", "pc_namespace", "configs"]
  constant (← member j "pc_namespace") "function_relative_bytes"
  let found ← member j "match"
  keys found ["entry", "target", "identity"]
  let entry ← text (← member found "entry")
  let target ← target (← member found "target")
  let identity ← member found "identity"
  keys identity ["kind", "value"]
  constant (← member identity "kind") "cubin_sha256"
  let cubinSha256 ← text (← member identity "value")
  if cubinSha256.utf8ByteSize ≠ 64 ∨ hex cubinSha256.toList = false then
    fail "invalid cubin SHA256"
  else return ⟨entry, target, cubinSha256, []⟩

def kernel (counts : Counts) : Except PlanError (Kernel × Counts) := do
  let result ← kernelFields j
  let items ← array (← member j "configs") kConfigsMax
  let (configs, counts) ← items.foldlM (addConfig v) ([], counts)
  return ({ result with configs }, counts)

def policy (j : Json) : Except PlanError Policy := do
  keys j ["unmatched_kernel", "unsupported_request", "identity_mismatch", "conflicts"]
  constant (← member j "unmatched_kernel") "skip"
  constant (← member j "conflicts") "error"
  let unsupported ← text (← member j "unsupported_request")
  if unsupported ≠ "error" ∧ unsupported ≠ "report_gap" then
    fail "unknown unsupported request policy"
  else do
    let mismatch ← text (← member j "identity_mismatch")
    if mismatch ≠ "error" ∧ mismatch ≠ "skip" then fail "unknown identity mismatch policy"
    else return ⟨unsupported = "report_gap", mismatch = "skip"⟩

/-! ### Documents -/

/-- What the parser callback keeps: the nodes so far and the keys of the open objects. -/
structure Scan where
  nodes : ℕ
  objects : List (List String)

def callback (s : Scan) (e : ℕ × Json.ParseEvent) : Except PlanError Scan :=
  if 64 < e.1 ∨ kNodesMax < s.nodes + 1 then fail "JSON nesting or node budget exceeded"
  else match e.2 with
    | .objectStart => .ok ⟨s.nodes + 1, [] :: s.objects⟩
    | .objectEnd => .ok ⟨s.nodes + 1, s.objects.tail⟩
    | .key k =>
      let seen := s.objects.headD []
      if k ∈ seen then fail "duplicate JSON key"
      else .ok ⟨s.nodes + 1, (k :: seen) :: s.objects.tail⟩
    | _ => .ok ⟨s.nodes + 1, s.objects⟩

/-- What parsing can throw: an error of the callback or one of the JSON library. -/
inductive Failure where
  | plan (e : PlanError)
  | json (e : JsonException)

def parseJson (bytes : List UInt8) (nodes : ℕ) : Except Failure (Json × ℕ) :=
  match (v.sax bytes).1.foldlM callback ⟨nodes, []⟩ with
  | .error e => .error (.plan e)
  | .ok s =>
    match (v.sax bytes).2 with
    | .error e => .error (.json e)
    | .ok j => .ok (j, s.nodes)

/-- The error of an exception that leaves the loader. -/
def invalidJson {α : Type} (e : JsonException) : Except PlanError α :=
  fail ("invalid JSON: " ++ e.what)

def isBlank (line : List UInt8) : Bool := line.all fun b => b = 32 || b = 13 || b = 9

/-- The next line of a file of records, with the records and nodes before it. -/
def addRecord (state : List Json × ℕ) (line : List UInt8) : Except PlanError (List Json × ℕ) :=
  if isBlank line then .ok state
  else if state.1.length = kKernelsMax then fail "too many NDJSON records"
  else match parseJson v line state.2 with
    | .error (.plan e) => .error e
    | .error (.json e) => invalidJson e
    | .ok (j, nodes) => .ok (state.1 ++ [j], nodes)

/-- The documents of a file: one, or else one a line. `getline` gives no line after a
final newline; as a line it would be blank. -/
def documents (bytes : List UInt8) : Except PlanError (List Json) :=
  match parseJson v bytes 0 with
  | .ok (j, _) => .ok [j]
  | .error (.plan e) => .error e
  | .error (.json e) =>
    if e.isParseError = false then invalidJson e
    else do
      let (result, _) ← (bytes.splitOn 10).foldlM (addRecord v) ([], 0)
      if result = [] then fail "empty plan" else .ok result

/-! ### Normal form -/

def Kernel.key (k : Kernel) : String ×ₗ (String ×ₗ String) :=
  toLex (k.cubinSha256, toLex (k.entry, k.target))

structure PointBytes where
  cubinSha256 : String
  function : String
  pc : ℕ
  bytes : String

def PointBytes.key (b : PointBytes) : String × String × ℕ := (b.cubinSha256, b.function, b.pc)

def sameBytes (old new : PointBytes) : Except PlanError PointBytes :=
  if old.bytes ≠ new.bytes then fail "conflicting instruction bytes across configurations"
  else .ok old

/-- The group of a kernel takes its configurations. -/
def joinKernel (it k : Kernel) : Except PlanError Kernel :=
  .ok { it with configs := it.configs ++ k.configs }

def pointBytes (k : Kernel) (p : Point) : PointBytes :=
  ⟨k.cubinSha256, p.function, p.pc, p.expectedBytes⟩

def addBytes (k : Kernel) (bytes : List PointBytes) (c : Config) :
    Except PlanError (List PointBytes) :=
  c.points.foldlM (fun bytes p => emplaceWith PointBytes.key sameBytes (pointBytes k p) bytes)
    bytes

/-- The kernels grouped so far, and the instruction bytes of their points. -/
def addKernel (state : List Kernel × List PointBytes) (k : Kernel) :
    Except PlanError (List Kernel × List PointBytes) := do
  let bytes ← k.configs.foldlM (addBytes k) state.2
  let grouped ← emplaceWith Kernel.key joinKernel k state.1
  return (grouped, bytes)

def sameConfig (it c : Config) : Except PlanError Config :=
  if it.toJson ≠ c.toJson then fail "conflicting config ID" else .ok it

/-- The configurations of a group, each identifier once. -/
def uniqueConfigs (k : Kernel) : Except PlanError Kernel := do
  let configs ← k.configs.foldlM (fun configs c => emplaceWith Config.id sameConfig c configs) []
  return { k with configs := sortOn Config.id configs }

def normalize (kernels : List Kernel) : Except PlanError (List Kernel) := do
  let (grouped, _) ← kernels.foldlM addKernel ([], [])
  (sortOn Kernel.key grouped).mapM uniqueConfigs

/-! ### The loader -/

/-- What the loader knows after some documents. `id` is empty before the first. -/
structure Loading where
  id : String
  header : Json
  policy : Policy
  kernels : List Kernel
  counts : Counts

def addKernelJson (state : List Kernel × Counts) (item : Json) :
    Except PlanError (List Kernel × Counts) := do
  let (k, counts) ← kernel v item state.2
  return (state.1 ++ [k], counts)

def documentKernels (docs : ℕ) (doc : Json) : Except PlanError (List Json) :=
  if contains doc "schema" = false then fail "plan needs schema"
  else do
    let schema ← text (← member doc "schema")
    if schema = kSchema then do
      keys doc ["schema", "plan_id", "policy", "kernels"]
      if docs ≠ 1 then fail "document cannot be mixed with NDJSON records"
      else array (← member doc "kernels") kKernelsMax
    else if schema = kRecordSchema then do
      keys doc ["schema", "plan_id", "policy", "kernel"]
      return [← member doc "kernel"]
    else fail "unknown schema version"

def addDocument (docs : ℕ) (state : Loading) (doc : Json) : Except PlanError Loading := do
  let items ← documentKernels docs doc
  let candidateId ← text (← member doc "plan_id")
  let header ← member doc "policy"
  let candidatePolicy ← policy header
  if state.id ≠ "" ∧ (state.id ≠ candidateId ∨ state.header ≠ header) then
    fail "inconsistent NDJSON plan ID or policy"
  else do
    let (kernels, counts) ← items.foldlM (addKernelJson v) (state.kernels, state.counts)
    if state.id = "" then return ⟨candidateId, header, candidatePolicy, kernels, counts⟩
    else return { state with kernels, counts }

def canonicalJson (id : String) (header : Json) (kernels : List Kernel) : Json :=
  .obj [("kernels", .arr (kernels.map Kernel.toJson)), ("plan_id", .str id), ("policy", header),
    ("schema", .str kSchema)]

def loadDocuments (docs : List Json) : Except PlanError (Loading × List Kernel) := do
  let loaded ← docs.foldlM (addDocument v docs.length)
    ⟨"", .null, ⟨false, false⟩, [], (0, 0)⟩
  let kernels ← normalize loaded.kernels
  return (loaded, kernels)

def parse (bytes : List UInt8) : Except PlanError CanonicalPlan :=
  if bytes = [] ∨ kFileBytesMax < bytes.length then fail "empty or oversized plan file"
  else if 0 ∈ bytes then fail "raw NUL in plan file"
  else do
    let docs ← documents v bytes
    let (loaded, kernels) ← loadDocuments v docs
    let canonical := canonicalJson loaded.id loaded.header kernels
    return ⟨loaded.id, loaded.policy, kernels, canonical,
      v.hash256HexString (utf8 (v.dump true canonical)), v.hash256HexString bytes⟩

end CuTracer.Plan
