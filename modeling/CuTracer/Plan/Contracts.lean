import CuTracer.Library.Collect
import CuTracer.Library.JsonText
import Mathlib.Data.Prod.Lex

/-! Instrumentation plans: kernels, their configurations, the points a configuration
instruments and what is observed there; the checks on the values of a plan file; and
the canonical JSON of a plan. The JSON library and the hash are not code of the
repository and stand as parameters. -/

namespace CuTracer.Plan

/-! ### Third-party code -/

structure JsonException where
  isParseError : Bool
  what : String

/-- The JSON library and the hash. `sax` reads some bytes: the events in the order the
parser reports them, up to where it stops, and the document or the exception. -/
structure Vendor where
  sax : List UInt8 → List (ℕ × Json.ParseEvent) × Except JsonException Json
  /-- The compact text, in ASCII only if asked. -/
  dump : Bool → Json → String
  hash256HexString : List UInt8 → String

/-! ### Limits and errors -/

def kSchema : String := "cutracer.instrumentation_plan/v1"
def kRecordSchema : String := "cutracer.kernel_plan/v1"
def kExactIntegerMax : ℕ := 2 ^ 53 - 1
def kFileBytesMax : ℕ := 16 * 1024 * 1024
def kNodesMax : ℕ := 500000
def kKernelsMax : ℕ := 256
def kConfigsMax : ℕ := 4096
def kPointsMax : ℕ := 65536
def kArrayMax : ℕ := 65536
def kObservationsMax : ℕ := 512

structure PlanError where
  what : String
  deriving DecidableEq

def fail {α : Type} (detail : String) : Except PlanError α :=
  .error ⟨"instrumentation plan: " ++ detail⟩

/-! ### Plans -/

inductive Phase where
  | before
  | after
  deriving DecidableEq

inductive PredicatePolicy where
  | executed
  | reached
  deriving DecidableEq

inductive RegisterBank where
  | R
  | UR
  | P
  | UP
  deriving DecidableEq

inductive ObservationKind where
  | registers
  | memoryAddress
  | memoryValue
  | opcode
  | tma
  | delay
  deriving DecidableEq

structure Register where
  bank : RegisterBank
  index : ℕ
  deriving DecidableEq

structure Observation where
  kind : ObservationKind
  registers : List Register
  mref : ℕ
  delayNs : ℕ
  deriving DecidableEq

structure Point where
  function : String
  pc : ℕ
  expectedBytes : String
  phase : Phase
  predicate : PredicatePolicy
  observations : List Observation
  deriving DecidableEq

structure LaunchSelector where
  all : Bool
  ordinals : List ℕ
  deriving DecidableEq

/-- The coordinates of a CTA, ordered as a triple. -/
abbrev Cta := ℕ ×ₗ (ℕ ×ₗ ℕ)

/-- An empty list denotes "all". -/
structure CaptureSelector where
  ctas : List Cta
  warps : List ℕ
  lanes : List ℕ
  deriving DecidableEq

structure Budget where
  maxRecords : ℕ
  maxBytes : ℕ
  deriving DecidableEq

structure Config where
  id : String
  requests : List String
  launches : LaunchSelector
  capture : CaptureSelector
  budget : Budget
  points : List Point
  deriving DecidableEq

structure Kernel where
  entry : String
  target : String
  cubinSha256 : String
  configs : List Config
  deriving DecidableEq

structure Policy where
  reportUnsupportedAsGap : Bool
  skipIdentityMismatch : Bool
  deriving DecidableEq

structure CanonicalPlan where
  id : String
  policy : Policy
  kernels : List Kernel
  canonical : Json
  canonicalSha256 : String
  sourceSha256 : String

/-! ### Checks on JSON values -/

def contains : Json → String → Bool
  | .obj fields, key => (Json.field fields key).isSome
  | _, _ => false

variable (j : Json)

/-- `j.at(key)`, whose exception the loader reports as invalid JSON. -/
def member (key : String) : Except PlanError Json :=
  match j with
  | .obj fields =>
    match Json.field fields key with
    | some v => .ok v
    | none => fail ("invalid JSON: key '" ++ key ++ "' not found")
  | _ => fail "invalid JSON: cannot use at()"

def keys (expected : List String) : Except PlanError Unit :=
  match j with
  | .obj fields =>
    if fields.length ≠ expected.length then fail "object has missing or unknown fields"
    else expected.forM fun key =>
      if (Json.field fields key).isSome then .ok () else fail ("missing field " ++ key)
  | _ => fail "object has missing or unknown fields"

def text : Json → Except PlanError String
  | .str value =>
    if value = "" ∨ 1024 < value.utf8ByteSize ∨ '\x00' ∈ value.toList then
      fail "empty or oversized string or embedded NUL"
    else .ok value
  | _ => fail "expected string"

def constant (expected : String) : Except PlanError Unit := do
  let value ← text j
  if value ≠ expected then fail ("expected " ++ expected) else .ok ()

def integer (j : Json) (low high : ℕ) : Except PlanError ℕ :=
  match j with
  | .int i =>
    if i < 0 then fail "expected nonnegative exact integer"
    else if i.toNat < low ∨ high < i.toNat then fail "integer outside permitted range"
    else .ok i.toNat
  | _ => fail "expected nonnegative exact integer"

def array (j : Json) (maximum : ℕ) : Except PlanError (List Json) :=
  match j with
  | .arr items =>
    if items = [] ∨ maximum < items.length then fail "expected nonempty bounded array"
    else .ok items
  | _ => fail "expected nonempty bounded array"

def adjacentFind {α : Type} [DecidableEq α] : List α → Bool
  | x :: y :: rest => x = y || adjacentFind (y :: rest)
  | _ => false

def uniqueSort {α : Type} [LinearOrder α] (values : List α) : Except PlanError (List α) :=
  if adjacentFind (sortOn id values) then fail "duplicate selection or request ID"
  else .ok (sortOn id values)

def sortedArray {α : Type} [LinearOrder α] (read : Json → Except PlanError α) (j : Json) :
    Except PlanError (List α) := do
  let items ← array j kArrayMax
  let result ← items.mapM read
  uniqueSort result

def integers (maximum : ℕ) : Except PlanError (List ℕ) :=
  sortedArray (integer · 0 maximum) j

def strings : Except PlanError (List String) := sortedArray text j

def hex (value : List Char) : Bool := value.all isHexDigit

def hexPc (value : ℕ) : String := "0x" ++ String.ofList (Nat.toDigits 16 value)

def pc : Except PlanError ℕ := do
  let value ← text j
  let digits := value.toList.drop 2
  if value.utf8ByteSize < 3 ∨ 18 < value.utf8ByteSize ∨ value.toList.take 2 ≠ ['0', 'x'] ∨
      hex digits = false then
    fail "PC must be a uint64 lowercase hex byte offset"
  else if hexValue digits < 2 ^ 64 then .ok (hexValue digits)
  else fail "invalid PC"

def regIndex (bank : RegisterBank) (index : List Char) : Except PlanError Register :=
  if index = [] ∨ index.all Char.isDigit = false then fail "invalid register index"
  else if Nat.ofDigitChars 10 index 0 < 2 ^ 32 then .ok ⟨bank, Nat.ofDigitChars 10 index 0⟩
  else fail "register index exceeds uint32"

def reg : Except PlanError Register := do
  let value ← text j
  let cs := value.toList
  if cs.take 2 = ['U', 'R'] then regIndex .UR (cs.drop 2)
  else if cs.take 2 = ['U', 'P'] then regIndex .UP (cs.drop 2)
  else if cs.head? = some 'R' then regIndex .R (cs.drop 1)
  else if cs.head? = some 'P' then regIndex .P (cs.drop 1)
  else fail "unknown register bank"

/-! ### Canonical JSON

A JSON object is a sorted map: its fields stand in the order of their keys. -/

def RegisterBank.letters : RegisterBank → String
  | .R => "R"
  | .UR => "UR"
  | .P => "P"
  | .UP => "UP"

def Register.name (r : Register) : String := r.bank.letters ++ toString r.index

def kindName : ObservationKind → String
  | .registers => "reg_trace"
  | .memoryAddress => "mem_addr_trace"
  | .memoryValue => "mem_value_trace"
  | .opcode => "opcode_only"
  | .tma => "tma_trace"
  | .delay => "random_delay"

def strs (xs : List String) : Json := .arr (xs.map .str)

def ints (xs : List ℕ) : Json := .arr (xs.map fun n : ℕ => .int n)

def encode (o : Observation) : Json :=
  let kind := ("kind", Json.str (kindName o.kind))
  match o.kind with
  | .registers => .obj [kind, ("registers", strs (sortOn id (o.registers.map Register.name)))]
  | .memoryAddress => .obj [kind, ("mref", .int o.mref)]
  | .memoryValue => .obj [kind, ("mref", .int o.mref)]
  | .delay => .obj [("delay_ns", .int o.delayNs), kind]
  | .opcode => .obj [kind]
  | .tma => .obj [kind]

def Phase.name : Phase → String
  | .before => "before"
  | .after => "after"

def PredicatePolicy.name : PredicatePolicy → String
  | .executed => "executed_lanes"
  | .reached => "reached_lanes"

def Point.toJson (point : Point) : Json :=
  .obj [("expected_bytes", .str point.expectedBytes), ("function", .str point.function),
    ("observations", .arr (point.observations.map encode)), ("pc", .str (hexPc point.pc)),
    ("phase", .str point.phase.name), ("predicate_policy", .str point.predicate.name)]

def LaunchSelector.toJson (launches : LaunchSelector) : Json :=
  if launches.all then .obj [("mode", .str "all")]
  else .obj [("indices", ints launches.ordinals), ("mode", .str "per_context_kernel_ordinal")]

def Cta.coordinates (cta : Cta) : List ℕ :=
  [(ofLex cta).1, (ofLex (ofLex cta).2).1, (ofLex (ofLex cta).2).2]

/-- A selection array; an empty one is the string "all". -/
def selectionJson {α : Type} (encode : List α → Json) (values : List α) : Json :=
  if values = [] then .str "all" else encode values

def CaptureSelector.toJson (capture : CaptureSelector) : Json :=
  .obj [("ctas", selectionJson (fun ctas => .arr (ctas.map fun cta => ints cta.coordinates)) capture.ctas),
    ("lanes", selectionJson ints capture.lanes), ("warps", selectionJson ints capture.warps)]

def Budget.toJson (budget : Budget) : Json :=
  .obj [("max_bytes", .int budget.maxBytes), ("max_records", .int budget.maxRecords),
    ("on_limit", .str "mark_incomplete")]

def Config.toJson (config : Config) : Json :=
  .obj [("budget", config.budget.toJson), ("capture", config.capture.toJson),
    ("config_id", .str config.id), ("launches", config.launches.toJson),
    ("points", .arr (config.points.map Point.toJson)), ("requests", strs config.requests)]

def Kernel.toJson (kernel : Kernel) : Json :=
  .obj [("configs", .arr (kernel.configs.map Config.toJson)),
    ("match", .obj [("entry", .str kernel.entry),
      ("identity", .obj [("kind", .str "cubin_sha256"), ("value", .str kernel.cubinSha256)]),
      ("target", .str kernel.target)]),
    ("pc_namespace", .str "function_relative_bytes")]

end CuTracer.Plan
