import CuTracer.Library.Json
import Mathlib.Data.List.Sort

/-! What a run of the target leaves behind besides its output: kernel event
files and a delay dump. From these a control run learns the launch geometry of
the instrumented kernels, and an attempt checks that its target was live. -/

namespace CuTracer.Stress

open Json (field)

/-- The exceptions a stress search can end with. -/
inductive StressError where
  | valueError (message : String)
  | osError (message : String)
  | typeError (message : String)
  /-- An exception of the target's runner: its type name and its text. -/
  | runner (kind message : String)
  deriving DecidableEq

/-- A delay dump as `json.load` reads it: a document, or why it has none. -/
abbrev Dump := Except String Json

/-- A file of a run's output directory: its lines, undecodable ones as `none`,
up to the error that ended reading, if any. -/
structure EventFile where
  name : String
  lines : List (Option Json)
  readError : Option String := none

/-- The output directory, or why it cannot be listed. -/
abbrev EventDir := Except String (List EventFile)

/-- The fields of a decoded `kernel_launch` event. -/
abbrev LaunchEvent := List (String × Json)

def isKernelEventsFile (file : EventFile) : Bool :=
  "cutracer_kernel_events_".toList.isPrefixOf file.name.toList &&
    ".ndjson".toList.isSuffixOf file.name.toList

def launchEvent : Option Json → Option LaunchEvent
  | some (.obj event) => if Json.isStr (field event "type") "kernel_launch" then some event else none
  | _ => none

def fileLaunchEvents (file : EventFile) : List LaunchEvent := file.lines.filterMap launchEvent

/-- `_kernel_launch_events`: every readable launch event, files by name. -/
def kernelLaunchEvents : EventDir → List LaunchEvent
  | .error _ => []
  | .ok files =>
    ((files.insertionSort fun a b => a.name ≤ b.name).filter isKernelEventsFile).flatMap
      fileLaunchEvents

/-- Warps per CTA, if the block dimensions are three positive integers. -/
def blockWarps (event : LaunchEvent) : Option ℕ :=
  match field event "block" with
  | some (.arr [.int x, .int y, .int z]) =>
    if 0 < x ∧ 0 < y ∧ 0 < z then some ((x * y * z + 31) / 32).toNat else none
  | _ => none

def clusterSize (event : LaunchEvent) : ℕ :=
  match field event "cluster_size" with
  | some (.int size) => if 1 ≤ size then size.toNat else 1
  | _ => 1

theorem one_le_clusterSize (event : LaunchEvent) : 1 ≤ clusterSize event := by
  unfold clusterSize
  split
  · split_ifs <;> omega
  · exact Nat.le_refl 1

/-! ### Launch geometry -/

/-- The largest instrumented launch shape a control run observed. -/
structure LaunchGeometry where
  warps : ℕ
  clusterSize : ℕ
  deriving DecidableEq

namespace LaunchGeometry

def merge (g : LaunchGeometry) : Option LaunchGeometry → LaunchGeometry
  | none => g
  | some h => ⟨max g.warps h.warps, max g.clusterSize h.clusterSize⟩

/-- The order of the key `(warps, cluster_size)`. -/
def keyLt (g h : LaunchGeometry) : Prop :=
  g.warps < h.warps ∨ (g.warps = h.warps ∧ g.clusterSize < h.clusterSize)

instance (g h : LaunchGeometry) : Decidable (keyLt g h) := inferInstanceAs (Decidable (_ ∨ _))

/-- `max(..., key=...)`: the first geometry with the largest key. -/
def widest : List LaunchGeometry → Option LaunchGeometry
  | [] => none
  | g :: gs => some (gs.foldl (fun best h => if keyLt best h then h else best) g)

end LaunchGeometry

/-- The checksum of one dumped kernel, if it has delay points. Building the set
hashes the checksum, which a list or an object refuses. -/
def kernelChecksum : Json → Except StressError (Option String)
  | .obj kernel =>
    if ((field kernel "instrumentation_points").map Json.truthy).getD false then
      match field kernel "kernel_checksum" with
      | some (.str checksum) => .ok (some checksum)
      | some (.arr _) => .error (.typeError "unhashable type: 'list'")
      | some (.obj _) => .error (.typeError "unhashable type: 'dict'")
      | _ => .ok none
    else .ok none
  | _ => .ok none

def kernelChecksums : List Json → Except StressError (List String)
  | [] => .ok []
  | kernel :: rest =>
    match kernelChecksum kernel with
    | .error e => .error e
    | .ok checksum =>
      match kernelChecksums rest with
      | .error e => .error e
      | .ok checksums => .ok (checksum.toList ++ checksums)

/-- The dumped kernels, if the dump is readable and has the right shape. -/
def dumpKernels : Option Dump → Option (List Json)
  | some (.ok (.obj payload)) =>
    match (field payload "kernels").getD (.obj []) with
    | .obj kernels => some (kernels.map Prod.snd)
    | _ => none
  | _ => none

/-- The checksum and shape of a launch of a kernel with delay points. -/
def instrumentedLaunch (checksums : List String) (event : LaunchEvent) :
    Option (String × LaunchGeometry) :=
  match blockWarps event, field event "kernel_checksum" with
  | some warps, some (.str checksum) =>
    if checksum ∈ checksums then some (checksum, ⟨warps, clusterSize event⟩) else none
  | _, _ => none

def byChecksum (launches : List (String × LaunchGeometry)) : Dict String LaunchGeometry :=
  launches.foldl (fun d l => d.upsert l.1 l.2.merge) .empty

/-- `_instrumented_geometry`: the widest kernel of a run, its launches merged. -/
def instrumentedGeometry (dir : EventDir) (dump : Option Dump) :
    Except StressError (Option LaunchGeometry) :=
  match dumpKernels dump with
  | none => .ok none
  | some kernels =>
    match kernelChecksums kernels with
    | .error e => .error e
    | .ok checksums =>
      let launches := (kernelLaunchEvents dir).filterMap (instrumentedLaunch checksums)
      .ok (LaunchGeometry.widest (byChecksum launches).values)

/-! ### The launch check of an attempt -/

/-- Whether a launch has the CTA-local warp and the cluster rank. -/
def targetLive (warp : ℕ) (clusterRank : Option ℕ) (event : LaunchEvent) : Bool :=
  match blockWarps event with
  | none => false
  | some warps =>
    decide (warp < warps) &&
      match clusterRank with
      | none => true
      | some rank => decide (rank < clusterSize event)

/-- `_validate_target_launch`: why no matching launch has the target, if so. -/
def validateTargetLaunch (dir : EventDir) (checksum : String) (warp : ℕ) (clusterRank : Option ℕ)
    (label : String) : Option String :=
  match dir with
  | .error exc => some ("kernel launch evidence is unreadable: " ++ exc)
  | .ok files =>
    let files := files.filter isKernelEventsFile
    let matched := (files.flatMap fileLaunchEvents).filter fun event =>
      Json.isStr (field event "kernel_checksum") checksum
    let readErrors := files.filterMap fun file => file.readError.map fun exc => file.name ++ ": " ++ exc
    if matched.any (targetLive warp clusterRank) then none
    else if readErrors ≠ [] then
      some ("kernel launch evidence is unreadable: " ++ "; ".intercalate readErrors)
    else if matched ≠ [] then some (label ++ " has no live warp in the matching kernel launch")
    else some ("no matching kernel launch evidence was recorded for " ++ label ++ " targeting")

def validateWarpgroupLaunch (dir : EventDir) (warpgroup : ℕ) (checksum : String) : Option String :=
  validateTargetLaunch dir checksum (4 * warpgroup) none ("warpgroup " ++ toString warpgroup)

end CuTracer.Stress
