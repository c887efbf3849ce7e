import CuTracer.Stress.Attempt

/-! What a search reports and what it keeps on disk beside the delay configs:
the append-only log, rolled back when a write fails and cut back to the last
durable prefix on resume, and a bounded list of rejected configs. -/

namespace CuTracer.Stress

/-- How a reproduction relates to the target's own failure rate. -/
inductive Attribution where
  | notReproduced | noBaseline | baselineIncomplete | natural | attributed
  deriving DecidableEq

/-- `StressResult`. Counts read back from a report may be any integers. -/
structure StressResult where
  reproduced : Bool
  completedTrials : ℤ
  reproductions : ℤ
  infraErrors : ℤ
  reproductionRate : ℚ
  triggering : Option TriggeringConfig
  logPath : Option Path
  timedOut : ℤ
  hangs : ℤ
  unattributedReproductions : ℤ
  baselineRequested : ℤ
  baselineCompleted : ℤ
  baselineReproductions : ℤ
  baselineTimedOut : ℤ
  baselineInfraErrors : ℤ
  baselineHangs : ℤ
  attribution : Attribution
  logSizeBytes : Option ℤ
  rejectedConfigPaths : List Path
  strategy : Strategy
  targets : List TargetRecord
  delayLadderNs : Option (List ℕ)
  attemptsPerDelay : Option ℕ
  deriving DecidableEq

def StressResult.attempted (r : StressResult) : ℤ := r.completedTrials + r.infraErrors + r.timedOut

/-! ### The log -/

abbrev Bytes := List UInt8

abbrev Logs := Path → Option Bytes

def encode (s : String) : Bytes := s.toUTF8.data.toList

def stressLogPath (outputDir : String) : Path := ⟨outputDir, "stress.log"⟩

/-- Where a write to the log can fail; a short write leaves `written` bytes. -/
inductive LogStep where
  | sizeLookup | openFile | fsync | fsyncDirectory
  | write (written : ℕ)

/-- An `OSError` of a log write, and whether its rollback fails as well. -/
structure LogFault where
  step : LogStep
  message : String
  rollbackFails : Bool

/-- The bytes of one part: a newline separates it from what is there. -/
def logPayload (previousSize : ℕ) (part : String) : Bytes :=
  encode ((if previousSize = 0 then "" else "\n") ++ part)

/-- How much of the payload a failed step has written. -/
def LogStep.written : LogStep → Bytes → Bytes
  | .sizeLookup, _ => []
  | .openFile, _ => []
  | .write n, payload => payload.take n
  | .fsync, payload => payload
  | .fsyncDirectory, payload => payload

/-- Appending to a log. A failed step is rolled back to the size that was looked
up, which is zero as long as the lookup has not succeeded. -/
def appendStressLog (fault : Option LogFault) (log : Option Bytes) (part : String) :
    Option Bytes × Except StressError ℕ :=
  match log with
  | none => (none, .error (.osError "durable stress log disappeared before the next append"))
  | some old =>
    let payload := logPayload old.length part
    let done := (some (old ++ payload), .ok (old ++ payload).length)
    match fault with
    | none => done
    | some ⟨.fsyncDirectory, _, _⟩ => done
    | some ⟨.sizeLookup, message, rollbackFails⟩ =>
      (some (if rollbackFails then old else []), .error (.osError message))
    | some ⟨step, message, rollbackFails⟩ =>
      (some (if rollbackFails then old ++ step.written payload else old), .error (.osError message))

/-- Starting a log. A failed step removes the file. -/
def startStressLog (fault : Option LogFault) (log : Option Bytes) (part : String) :
    Option Bytes × Except StressError ℕ :=
  let payload := logPayload 0 part
  let done := (some payload, .ok payload.length)
  match fault with
  | none => done
  | some ⟨.sizeLookup, _, _⟩ => done
  | some ⟨.openFile, message, rollbackFails⟩ =>
    (if rollbackFails then log else none, .error (.osError message))
  | some ⟨step, message, rollbackFails⟩ =>
    (if rollbackFails then some (step.written payload) else none, .error (.osError message))

/-- `_write_stress_log`: durably append one part. -/
def writeStressLog (outputDir : String) (fault : Option LogFault) (part : String) (append : Bool)
    (logs : Logs) : Logs × Except StressError (Path × ℕ) :=
  let path := stressLogPath outputDir
  let written :=
    if append then appendStressLog fault (logs path) part else startStressLog fault (logs path) part
  (Function.update logs path written.1,
    match written.2 with
    | .error e => .error e
    | .ok size => .ok (path, size))

/-- `_prepare_stress_log`: start from the last durable checkpoint prefix. -/
def prepareStressLog (outputDir : String) (resume : Option StressResult) (logs : Logs) :
    Logs × Except StressError (Option Path × ℤ) :=
  let path := stressLogPath outputDir
  let fresh : Logs × Except StressError (Option Path × ℤ) :=
    (Function.update logs path none, .ok (none, 0))
  match resume with
  | none => fresh
  | some r =>
    if r.attempted = 0 then fresh
    else
      match r.logPath with
      | none => (logs, .error (.valueError "resumed stress progress requires a persisted log"))
      | some source =>
        match logs source with
        | none => (logs, .error (.osError "no such file"))
        | some bytes =>
          let expected := r.logSizeBytes.getD bytes.length
          if expected < 0 ∨ bytes.length < expected then
            (logs, .error (.valueError "resumed stress log is shorter than its durable prefix"))
          else (Function.update logs path (some (bytes.take expected.toNat)), .ok (some path, expected))

/-! ### Rejected configs -/

def maxRejectedConfigs : ℕ := 16

/-- `retain_oldest_and_newest`: the oldest and newest halves of an oversized list. -/
def retainOldestAndNewest {α : Type*} (items : List α) : List α :=
  if items.length ≤ maxRejectedConfigs then items
  else
    items.take (maxRejectedConfigs / 2) ++
      items.drop (items.length - (maxRejectedConfigs - maxRejectedConfigs / 2))

/-- `_is_owned_path`: whether a file lies under a directory. -/
def isOwnedPath (path : Path) (ownedRoot : String) : Bool :=
  decide (path.dir = ownedRoot) || (ownedRoot ++ "/").toList.isPrefixOf path.dir.toList

def unlinkDropped (ownedRoot : String) (candidates retained : List Path) (configs : Configs) :
    Configs := fun path =>
  if path ∈ candidates ∧ path ∉ retained ∧ isOwnedPath path ownedRoot then none else configs path

/-- The distinct items, each at its first place. -/
def fromKeys {α : Type*} [DecidableEq α] (items : List α) : List α := items.reverse.dedup.reverse

def boundedRejectedConfigPaths (ownedRoot : String) (paths : List Path) (configs : Configs) :
    List Path × Configs :=
  let unique := fromKeys paths
  let retained := retainOldestAndNewest unique
  (retained, unlinkDropped ownedRoot unique retained configs)

def recordRejectedConfig (ownedRoot : String) (paths : List Path) (rejected : Option Path)
    (configs : Configs) : List Path × Configs :=
  match rejected with
  | none => (paths, configs)
  | some path =>
    if path ∈ paths then (paths, configs)
    else
      let candidates := paths ++ [path]
      let retained := retainOldestAndNewest candidates
      (retained, unlinkDropped ownedRoot candidates retained configs)

end CuTracer.Stress
