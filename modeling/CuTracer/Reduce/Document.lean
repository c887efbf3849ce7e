import CuTracer.Library.Fallible
import CuTracer.Library.JsonSchema

/-! Delay configs as the mutator holds them: a document and a list of point objects read from it,
in a memory that other mutators share. Every operation changes both. -/

namespace CuTracer.Reduce.Document

open CuTracer.Json (field)

/-! ### The schema -/

/-- A regular expression that ends with `$`: before a last line feed, too. -/
def endOfText (test : List Char → Bool) (cs : List Char) : Bool :=
  test cs || (decide (cs.getLast? = some '\n') && test cs.dropLast)

def isHex (c : Char) : Bool := c.isDigit || ('a' ≤ c && c ≤ 'f')

/-- `^[0-9]+\.[0-9]+$` -/
def versionPattern : List Char → Bool :=
  endOfText fun cs =>
    !(cs.takeWhile Char.isDigit).isEmpty && decide ((cs.dropWhile Char.isDigit).head? = some '.') &&
      !(cs.dropWhile Char.isDigit).tail.isEmpty && (cs.dropWhile Char.isDigit).tail.all Char.isDigit

/-- `^[0-9a-f]+$` -/
def checksumPattern : List Char → Bool := endOfText fun cs => !cs.isEmpty && cs.all isHex

/-- Digits where the template has a zero, and its own characters elsewhere. -/
def matchesTemplate : List Char → List Char → Bool
  | [], [] => true
  | t :: ts, c :: cs => (if t = '0' then c.isDigit else decide (c = t)) && matchesTemplate ts cs
  | _, _ => false

/-- `^[0-9]{4}-[0-9]{2}-[0-9]{2}T[0-9]{2}:[0-9]{2}:[0-9]{2}\.[0-9]{3}$` -/
def timestampPattern : List Char → Bool := endOfText (matchesTemplate "0000-00-00T00:00:00.000".toList)

def instrumentationPoint : Json → Bool :=
  Json.Schema.object ["pc", "sass", "delay", "on"]
    [("pc", Json.Schema.integer (some 0) none), ("sass", Json.Schema.string fun _ => true),
      ("delay", Json.Schema.integer (some 0) none), ("on", Json.Schema.boolean),
      ("cluster_seed", Json.Schema.integer (some 0) (some 4294967295))]
    Json.Schema.closed

def kernelDelayConfig : Json → Bool :=
  Json.Schema.object ["kernel_name", "kernel_checksum", "timestamp", "instrumentation_points"]
    [("kernel_name", Json.Schema.string fun cs => !cs.isEmpty),
      ("kernel_checksum", Json.Schema.string checksumPattern),
      ("timestamp", Json.Schema.string timestampPattern),
      ("instrumentation_points", Json.Schema.object [] [] instrumentationPoint)]
    Json.Schema.closed

def delayConfigSchema : Json → Bool :=
  Json.Schema.object ["version", "delay_ns", "kernels"]
    [("version", Json.Schema.string versionPattern), ("delay_ns", Json.Schema.integer (some 0) none),
      ("seed", Json.Schema.integer (some 0) (some 18446744073709551615)),
      ("kernels", Json.Schema.object [] [] kernelDelayConfig)]
    Json.Schema.closed

/-! ### Points -/

/-- What the functions raise. The text of `invalidConfig` ends with the validator's own. -/
inductive PyError where
  | invalidConfig (configPath : String)
  | attributeError
  | keyError (key : String)
  | typeError
  | valueError (message : String)
  | jsonDecodeError
  | configDoesNotTrigger
  | replayFailed
  deriving DecidableEq

/-- A `DelayPoint` object; its values are those of the document. -/
structure DelayPoint where
  kernelKey : String
  kernelName : Json
  pcOffset : String
  sass : Json
  delayNs : Json
  enabled : Json

/-- `(kernel_key, pc_offset)`. -/
abbrev Key := String × String

def DelayPoint.key (p : DelayPoint) : Key := (p.kernelKey, p.pcOffset)

/-- A value whose attributes `get` and `items` are used. -/
def asDict : Json → Except PyError (List (String × Json))
  | .obj fields => .ok fields
  | _ => .error .attributeError

/-- One entry of `instrumentation_points`. -/
def parsePoint (kernelKey : String) (kernelName : Json) (e : String × Json) : Except PyError DelayPoint := do
  let point ← asDict e.2
  .ok { kernelKey := kernelKey
        kernelName := kernelName
        pcOffset := e.1
        sass := (field point "sass").getD (.str "")
        delayNs := (field point "delay").getD (.int 0)
        enabled := (field point "on").getD (.bool false) }

/-- One entry of `kernels`. -/
def parseKernel (e : String × Json) : Except PyError (List DelayPoint) := do
  let kernelConfig ← asDict e.2
  let points ← asDict ((field kernelConfig "instrumentation_points").getD (.obj []))
  points.mapM (parsePoint e.1 ((field kernelConfig "kernel_name").getD (.str e.1)))

/-- `_parse_delay_points`, up to where the points are stored. -/
def parseDelayPoints (config : Json) : Except PyError (List DelayPoint) := do
  let config ← asDict config
  let kernels ← asDict ((field config "kernels").getD (.obj []))
  let points ← kernels.mapM parseKernel
  .ok points.flatten

/-- `value[key]` with its new value. -/
def updateEntries (key : String) (f : Json → Except PyError Json) :
    List (String × Json) → Except PyError (List (String × Json))
  | [] => .error (.keyError key)
  | (k, v) :: fields =>
    if k = key then do
      let w ← f v
      .ok ((k, w) :: fields)
    else do
      let rest ← updateEntries key f fields
      .ok ((k, v) :: rest)

def update (key : String) (f : Json → Except PyError Json) : Json → Except PyError Json
  | .obj fields => do
    let updated ← updateEntries key f fields
    .ok (.obj updated)
  | _ => .error .typeError

/-- `value[key] = assigned`. -/
def assign (key : String) (assigned : Json) : Json → Except PyError Json
  | .obj fields => .ok (.obj (Dict.upsertEntries key (fun _ => assigned) fields))
  | _ => .error .typeError

/-- `config["kernels"][kernel_key]["instrumentation_points"][pc_offset]["on"] = enabled`. -/
def setOn (key : Key) (enabled : Bool) : Json → Except PyError Json :=
  update "kernels" <| update key.1 <| update "instrumentation_points" <| update key.2 <|
    assign "on" (.bool enabled)

/-! ### Mutators in a memory -/

/-- Documents and points under references; those below the next one are in use. -/
structure Memory where
  configs : ℕ → Json
  nextConfig : ℕ
  points : ℕ → DelayPoint
  nextPoint : ℕ

def Memory.setPoint (mem : Memory) (point : ℕ) (p : DelayPoint) : Memory :=
  { mem with points := Function.update mem.points point p }

def Memory.setConfig (mem : Memory) (config : ℕ) (doc : Json) : Memory :=
  { mem with configs := Function.update mem.configs config doc }

/-- A new document, and new points. -/
def Memory.allocate (mem : Memory) (config : Json) (points : List DelayPoint) : Memory where
  configs := Function.update mem.configs mem.nextConfig config
  nextConfig := mem.nextConfig + 1
  points r := if r < mem.nextPoint then mem.points r else points.getD (r - mem.nextPoint) (mem.points r)
  nextPoint := mem.nextPoint + points.length

structure DelayConfigMutator where
  configPath : String
  config : ℕ
  delayPoints : List ℕ

/-- A document of its own, with the points parsed from it. -/
def newMutator (configPath : String) (config : Json) (mem : Memory) :
    Except PyError (DelayConfigMutator × Memory) := do
  let points ← parseDelayPoints config
  .ok (⟨configPath, mem.nextConfig, List.range' mem.nextPoint points.length⟩, mem.allocate config points)

/-- The JSON functions `load` and `dump`; `load` may raise. -/
structure JsonLibrary where
  dump : Json → String
  load : String → Option Json

namespace DelayConfigMutator

/-- `DelayConfigMutator(config_path, validate)` on a file's text. -/
def init (library : JsonLibrary) (configPath text : String) (validate : Bool) (mem : Memory) :
    Except PyError (DelayConfigMutator × Memory) :=
  match library.load text with
  | none => .error .jsonDecodeError
  | some config =>
    if validate && !delayConfigSchema config then .error (.invalidConfig configPath)
    else newMutator configPath config mem

def enabledPoints (mem : Memory) (m : DelayConfigMutator) : List ℕ :=
  m.delayPoints.filter fun point => (mem.points point).enabled.truthy

def setPointEnabled (m : DelayConfigMutator) (point : ℕ) (enabled : Bool) (mem : Memory) :
    Except PyError Memory := do
  let mem := mem.setPoint point { mem.points point with enabled := .bool enabled }
  let config ← setOn (mem.points point).key enabled (mem.configs m.config)
  .ok (mem.setConfig m.config config)

def setAllEnabled (m : DelayConfigMutator) (enabled : Bool) (mem : Memory) : Except PyError Memory :=
  m.delayPoints.foldlM (fun mem point => m.setPointEnabled point enabled mem) mem

/-- `save`: the text of the file. -/
def save (library : JsonLibrary) (mem : Memory) (m : DelayConfigMutator) : String :=
  library.dump (mem.configs m.config)

/-- `clone`: a deep copy, with points of its own. -/
def clone (m : DelayConfigMutator) (mem : Memory) : Except PyError (DelayConfigMutator × Memory) :=
  newMutator m.configPath (mem.configs m.config) mem

end DelayConfigMutator

/-! ### The reducers' writers -/

def makeConfigWithPoints (baseMutator : DelayConfigMutator) (pointsToEnable : List ℕ) (mem : Memory) :
    Except PyError (DelayConfigMutator × Memory) := do
  let (m, mem) ← baseMutator.clone mem
  let mem ← m.setAllEnabled false mem
  let enableSet := pointsToEnable.map fun point => (mem.points point).key
  let mem ← m.delayPoints.foldlM
    (fun mem point =>
      if enableSet.contains (mem.points point).key then m.setPointEnabled point true mem else .ok mem) mem
  .ok (m, mem)

def findPointInMutator (mem : Memory) (m : DelayConfigMutator) (key : Key) : Option ℕ :=
  (m.enabledPoints mem).find? fun point => decide ((mem.points point).key = key)

def disablePoint (m : DelayConfigMutator) (key : Key) (mem : Memory) : Except PyError Memory :=
  match findPointInMutator mem m key with
  | some point => m.setPointEnabled point false mem
  | none => .ok mem

/-- `_test_point_essentiality`; `test` is what the runs on the saved file come to. -/
def testPointEssentiality (library : JsonLibrary) (test : String → Except PyError Bool) (point : ℕ)
    (m : DelayConfigMutator) (mem : Memory) : Except PyError (Bool × Memory) := do
  let (testMutator, mem) ← m.clone mem
  let mem ← disablePoint testMutator (mem.points point).key mem
  let raceOccurs ← test (testMutator.save library mem)
  .ok (!raceOccurs, mem)

/-- The loop of `reduce_delay_points`; the runs of one iteration need not agree with those of another. -/
def reduceLoop (library : JsonLibrary) (test : ℕ → String → Except PyError Bool) (m : DelayConfigMutator) :
    ℕ → List ℕ → List ℕ → Memory → Except PyError (List ℕ × Memory)
  | _, [], essential, mem => .ok (essential, mem)
  | iteration, point :: rest, essential, mem => do
    let (isEssential, mem) ← testPointEssentiality library (test iteration) point m mem
    if isEssential then reduceLoop library test m (iteration + 1) rest (essential ++ [point]) mem
    else do
      let mem ← disablePoint m (mem.points point).key mem
      reduceLoop library test m (iteration + 1) rest essential mem

/-- `ReduceResult`; the path of the minimal config comes with the text that is saved there. -/
structure ReduceResult where
  totalPoints : ℕ
  essentialPoints : List ℕ
  iterations : ℕ
  minimalConfig : Option (String × String)

def reduceDelayPoints (library : JsonLibrary) (test : ℕ → String → Except PyError Bool)
    (configPath text : String) (validate : Bool) (outputPath : Option String) (mem : Memory) :
    Except PyError (ReduceResult × DelayConfigMutator × Memory) := do
  let (m, mem) ← DelayConfigMutator.init library configPath text validate mem
  if m.enabledPoints mem = [] then .error (.valueError "No enabled delay points in config")
  else do
    let interesting ← test 0 (m.save library mem)
    if !interesting then .error .configDoesNotTrigger
    else do
      let pointsToTest := m.enabledPoints mem
      let (essential, mem) ← reduceLoop library test m 1 pointsToTest [] mem
      .ok (⟨pointsToTest.length, essential, pointsToTest.length,
        outputPath.map fun path => (path, m.save library mem)⟩, m, mem)

end CuTracer.Reduce.Document
