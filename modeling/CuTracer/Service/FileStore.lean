import CuTracer.Library.Contract
import CuTracer.Library.SortedMap
import CuTracer.Service.Catalog
import CuTracer.Service.Session
import Mathlib.Data.Prod.Lex

/-! The session store in a directory. A session is a file that is replaced by renaming, under a
lock of its own; scans read the files without locks. Every system call is one atomic action. -/

namespace CuTracer.Service.FileStore

variable {ρ P : Type}

/-! ### Sessions and records -/

/-- What the store reads of an `AnalysisSession`, and the rest of it. -/
structure Session (ρ : Type) where
  sessionId : String
  stateRevision : ℤ
  status : SessionStatus
  reportPublication : ReportPublicationStatus
  rest : ρ

def Session.requiresReconciliation (s : Session ρ) : Bool :=
  !s.status.terminal || s.reportPublication == .pending

/-- `AnalysisSession.to_dict`, as it is read back from JSON, and `AnalysisSession.from_dict`. -/
structure Codec (ρ P : Type) where
  toDict : Session ρ → P
  fromDict : P → Except String (Session ρ)

structure SessionRetentionPolicy where
  activeTtlS : ℤ := 30 * 24 * 60 * 60
  terminalTtlS : ℤ := 90 * 24 * 60 * 60
  pruneBatchSize : ℤ := 100
  ttl_pos : 0 < activeTtlS ∧ 0 < terminalTtlS := by decide
  batch_pos : 0 < pruneBatchSize := by decide

def SessionRetentionPolicy.expiresAtMs (p : SessionRetentionPolicy) (status : SessionStatus)
    (updatedAtMs : ℤ) : ℤ :=
  updatedAtMs + (if status.terminal then p.terminalTtlS else p.activeTtlS) * 1000

/-- The JSON object in a file; an older store has not written `pending`. -/
structure Record (P : Type) where
  sessionId : String
  stateRevision : ℤ
  status : SessionStatus
  updatedAtMs : ℤ
  expiresAtMs : ℤ
  pending : Option Bool
  session : P

inductive Fault where
  /-- `StoreConflict`. -/
  | conflict (sessionId : String)
  /-- `SessionNotFound`. -/
  | notFound (sessionId : String)
  /-- `ValueError`. -/
  | value (message : String)
  /-- `StoreUnavailable`. -/
  | unavailable (message : String)

/-! ### The directory -/

inductive Operation (ρ : Type) where
  | create (session : Session ρ)
  | load (sessionId : String)
  | compareAndSwap (sessionId : String) (expectedRevision : ℤ) (session : Session ρ)
  | listPending (limit : ℤ)
  | pruneExpired (nowMs : ℤ) (limit : Option ℤ)

inductive Answer (ρ : Type) where
  | done
  | session (session : Session ρ)
  | ids (sessionIds : List String)
  | removed (count : ℕ)

/-- What processes do to the directory, and the beginnings and ends of their calls. The name of a
file is the key of its session; what is written is the record of a session. -/
inductive Event (ρ P : Type) where
  | began (operation : Operation ρ)
  | wrote (name : String) (session : Session ρ) (record : Record P)
  | removed (name : String)
  | ended (outcome : Except Fault (Answer ρ))

structure Entry (ρ P : Type) where
  caller : ℕ
  event : Event ρ P

abbrev Log (ρ P : Type) := List (Entry ρ P)

def Event.after (name : String) (file : Option (Session ρ × Record P)) :
    Event ρ P → Option (Session ρ × Record P)
  | .wrote name' session record => if name' = name then some (session, record) else file
  | .removed name' => if name' = name then none else file
  | _ => file

/-- What a file holds after all that was done, in a directory that was empty. -/
def stored (log : Log ρ P) (name : String) : Option (Session ρ × Record P) :=
  log.foldl (fun file entry => entry.event.after name file) none

/-- Who holds the lock of a file, as `flock` grants it. -/
inductive Lock where
  | exclusive (holder : ℕ)
  | shared (holders : List ℕ)

def Lock.acquire : Lock → ℕ → Bool → Option Lock
  | .shared [], n, true => some (.exclusive n)
  | .shared ns, n, false => some (.shared (n :: ns))
  | _, _, _ => none

def Lock.release : Lock → ℕ → Lock
  | .exclusive m, n => if m = n then .shared [] else .exclusive m
  | .shared ns, n => .shared (ns.erase n)

/-- The directory is what the log has made of it. -/
structure State (ρ P : Type) where
  log : Log ρ P
  locks : String → Lock

def State.initial : State ρ P := ⟨[], fun _ => .shared []⟩

def State.push (s : State ρ P) (entry : Entry ρ P) : State ρ P := { s with log := s.log ++ [entry] }

/-! ### System calls -/

inductive Reading (P : Type) where
  /-- `FileNotFoundError`. -/
  | missing
  | failed (message : String)
  | record (record : Record P)

inductive WriteError where
  | os (message : String)
  /-- `ValueError`, of a session that is not JSON. -/
  | value (message : String)

/-- What processes do. The temporary file is no file of the store, so that it is written and
renamed in one action. A directory is read from one moment to another. -/
inductive Action (ρ P : Type) where
  | flock (caller : ℕ) (name : String) (exclusive : Bool)
  | unlock (caller : ℕ) (name : String)
  | pathExists (name : String)
  | read (name : String)
  | clock
  | replace (caller : ℕ) (name : String) (session : Session ρ) (record : Record P)
  | fsyncDirectory
  | opendir
  | readdir (since : ℕ)
  | unlink (caller : ℕ) (name : String)
  | begin (caller : ℕ) (operation : Operation ρ)
  | finish (caller : ℕ) (outcome : Except Fault (Answer ρ))

def Action.Reply : Action ρ P → Type
  | .pathExists _ => Bool
  | .read _ => Reading P
  | .clock => ℤ
  | .replace _ _ _ _ => Except WriteError Unit
  | .opendir => Except String ℕ
  | .readdir _ => Except String (List String)
  | .begin _ _ | .finish _ _ => Unit
  | _ => Except String Unit

def fileInterface (ρ P : Type) : Interface := ⟨Action ρ P, Action.Reply⟩

/-- Files that were there all the time are listed once, files that never were there are not. -/
def Lists (log : Log ρ P) (since : ℕ) (names : List String) : Prop :=
  ∀ name, ((∀ m, m <+: log → since ≤ m.length → stored m name ≠ none) → names.count name = 1) ∧
    ((∀ m, m <+: log → since ≤ m.length → stored m name = none) → name ∉ names)

/-- What actions do. Apart from `os.path.exists`, all that the system is asked for may fail. -/
def Does (s : State ρ P) : (action : Action ρ P) → action.Reply → State ρ P → Prop
  | .flock n name exclusive, .ok (), t =>
    ∃ lock, (s.locks name).acquire n exclusive = some lock ∧
      t = { s with locks := Function.update s.locks name lock }
  | .flock _ _ _, .error _, t => t = s
  | .unlock n name, _, t =>
    t = { s with locks := Function.update s.locks name ((s.locks name).release n) }
  | .pathExists name, found, t => t = s ∧ found = (stored s.log name).isSome
  | .read name, .missing, t => t = s ∧ stored s.log name = none
  | .read _, .failed _, t => t = s
  | .read name, .record record, t => t = s ∧ ∃ session, stored s.log name = some (session, record)
  | .clock, _, t => t = s
  | .replace n name session record, .ok (), t => t = s.push ⟨n, .wrote name session record⟩
  | .replace _ _ _ _, .error _, t => t = s
  | .fsyncDirectory, _, t => t = s
  | .opendir, .ok since, t => t = s ∧ since = s.log.length
  | .opendir, .error _, t => t = s
  | .readdir since, .ok names, t => t = s ∧ Lists s.log since names
  | .readdir _, .error _, t => t = s
  | .unlink n name, .ok (), t => stored s.log name ≠ none ∧ t = s.push ⟨n, .removed name⟩
  | .unlink _ _, .error _, t => t = s
  | .begin n operation, (), t => t = s.push ⟨n, .began operation⟩
  | .finish n outcome, (), t => t = s.push ⟨n, .ended outcome⟩

/-! ### The store -/

abbrev Program (ρ P α : Type) := ExceptT Fault (Prog (fileInterface ρ P)) α

def perform (action : Action ρ P) : Program ρ P action.Reply :=
  ExceptT.lift (@Prog.perform (fileInterface ρ P) action)

def raised {α : Type} : Except Fault α → Program ρ P α
  | .ok a => pure a
  | .error e => throw e

/-- An `OSError` is raised as `StoreUnavailable`. -/
def orUnavailable {α : Type} (what : String) : Except String α → Program ρ P α
  | .ok a => pure a
  | .error message => throw (.unavailable (what ++ message))

def key (sessionId : String) : Except Fault String :=
  if blank sessionId then .error (.value "session_id must not be empty")
  else .ok (sha256Text sessionId)

/-- `_locked`, around a body whose outcome it leaves as it is. -/
def locked {α : Type} (n : ℕ) (sessionId : String) (exclusive : Bool) (body : Program ρ P α) :
    Program ρ P α := do
  let path ← raised (key sessionId)
  orUnavailable "file-store lock failed: " (← perform (.flock n path exclusive))
  let outcome ← ExceptT.lift body.run
  orUnavailable "file-store lock failed: " (← perform (.unlock n path))
  raised outcome

def readRecord (sessionId : String) : Program ρ P (Record P) := do
  let path ← raised (key sessionId)
  match ← perform (.read path) with
  | .missing => throw (.notFound sessionId)
  | .failed message =>
    throw (.unavailable ("could not read session " ++ sessionId ++ ": " ++ message))
  | .record record =>
    if record.sessionId ≠ sessionId then
      throw (.unavailable ("invalid file-store record for " ++ sessionId))
    else return record

section Store

variable (codec : Codec ρ P) (retention : SessionRetentionPolicy)

def record (session : Session ρ) (updatedAtMs : ℤ) : Record P where
  sessionId := session.sessionId
  stateRevision := session.stateRevision
  status := session.status
  updatedAtMs := updatedAtMs
  expiresAtMs := retention.expiresAtMs session.status updatedAtMs
  pending := some session.requiresReconciliation
  session := codec.toDict session

variable (n : ℕ)

def writeRecord (session : Session ρ) : Program ρ P Unit := do
  let path ← raised (key session.sessionId)
  let updatedAtMs ← perform .clock
  match ← perform (.replace n path session (record codec retention session updatedAtMs)) with
  | .error (.os message) => throw (.unavailable ("could not write session: " ++ message))
  | .error (.value message) => throw (.value message)
  | .ok () => orUnavailable "could not write session: " (← perform .fsyncDirectory)

/-- `_session`. -/
def sessionOf (record : Record P) : Except Fault (Session ρ) :=
  match codec.fromDict record.session with
  | .error message => .error (.unavailable ("invalid file-store session payload: " ++ message))
  | .ok session =>
    if record.stateRevision < 0 then
      .error (.unavailable "file-store session revision metadata is invalid")
    else if session.stateRevision ≠ record.stateRevision then
      .error (.unavailable "file-store session revision metadata is inconsistent")
    else if session.status ≠ record.status then
      .error (.unavailable "file-store session status metadata is inconsistent")
    else if record.pending.any (· != session.requiresReconciliation) then
      .error (.unavailable "file-store session pending metadata is inconsistent")
    else .ok session

def create (session : Session ρ) : Program ρ P Unit :=
  locked n session.sessionId true do
    let path ← raised (key session.sessionId)
    let found : Bool ← perform (.pathExists path)
    if found then throw (.conflict session.sessionId)
    else writeRecord codec retention n session

def load (sessionId : String) : Program ρ P (Session ρ) :=
  locked n sessionId false do
    let record ← readRecord sessionId
    raised (sessionOf codec record)

def compareAndSwap (sessionId : String) (expectedRevision : ℤ) (session : Session ρ) :
    Program ρ P Unit :=
  if session.sessionId ≠ sessionId then
    throw (.value "replacement session_id differs from CAS key")
  else if session.stateRevision ≠ expectedRevision + 1 then
    throw (.value "replacement session revision must advance by exactly one")
  else locked n sessionId true do
    let record ← readRecord sessionId
    let current ← raised (sessionOf codec record)
    if current.stateRevision ≠ expectedRevision then throw (.conflict sessionId)
    else writeRecord codec retention n session

/-! ### Scans -/

def scan : List String → Program ρ P (List (Record P))
  | [] => return []
  | name :: names => do
    match ← perform (.read name) with
    | .missing => scan names
    | .failed message => throw (.unavailable ("could not scan file store: " ++ message))
    | .record record => return record :: (← scan names)

def recordSummaries : Program ρ P (List (Record P)) := do
  let since ← orUnavailable "could not scan file store: " (← perform .opendir)
  let names ← orUnavailable "could not scan file store: " (← perform (.readdir since))
  scan (sortOn id names)

def isPendingRecord (record : Record P) : Bool := record.pending.getD !record.status.terminal

def listPending (limit : ℤ) : Program ρ P (List String) :=
  if limit ≤ 0 then throw (.value "pending-session limit must be positive")
  else do
    let records ← recordSummaries
    let pending := (records.filter isPendingRecord).map fun r => toLex (r.updatedAtMs, r.sessionId)
    return ((sortOn id pending).take limit.toNat).map fun entry => (ofLex entry).2

def retentionMetadata (record : Record P) : ℤ ×ₗ String := toLex (record.expiresAtMs, record.sessionId)

/-- One turn of the loop of `prune_expired`: whether the record was removed. -/
def pruneOne (nowMs : ℤ) (sessionId : String) : Program ρ P Bool :=
  locked n sessionId true do
    match ← ExceptT.lift (readRecord sessionId).run with
    | .error (.notFound _) => return false
    | .error e => throw e
    | .ok record =>
      if record.expiresAtMs > nowMs then return false
      else do
        let path ← raised (key sessionId)
        orUnavailable ("could not prune session " ++ sessionId ++ ": ") (← perform (.unlink n path))
        return true

def pruneAll (n : ℕ) (nowMs : ℤ) (removed : ℕ) : List (ℤ ×ₗ String) → Program ρ P ℕ
  | [] => return removed
  | entry :: entries => do
    let one ← pruneOne n nowMs (ofLex entry).2
    pruneAll n nowMs (removed + one.toNat) entries

def pruneExpired (nowMs : ℤ) (limit : Option ℤ) : Program ρ P ℕ :=
  let batch := limit.getD retention.pruneBatchSize
  if batch ≤ 0 then throw (.value "retention prune limit must be positive")
  else do
    let records ← recordSummaries
    let expired := sortOn id ((records.map retentionMetadata).filter fun entry => (ofLex entry).1 ≤ nowMs)
    let removed ← pruneAll n nowMs 0 (expired.take batch.toNat)
    if removed ≠ 0 then orUnavailable "could not sync pruned sessions: " (← perform .fsyncDirectory)
    return removed

/-! ### Processes -/

def Operation.run : Operation ρ → Program ρ P (Answer ρ)
  | .create session => do
    FileStore.create codec retention n session
    return .done
  | .load sessionId => return .session (← FileStore.load codec n sessionId)
  | .compareAndSwap sessionId expectedRevision session => do
    FileStore.compareAndSwap codec retention n sessionId expectedRevision session
    return .done
  | .listPending limit => return .ids (← FileStore.listPending limit)
  | .pruneExpired nowMs limit => return .removed (← FileStore.pruneExpired retention n nowMs limit)

/-- A process makes one call after another, whatever they raise. -/
def process (n : ℕ) : List (Operation ρ) → Prog (fileInterface ρ P) Unit
  | [] => pure ()
  | operation :: operations => do
    @Prog.perform (fileInterface ρ P) (.begin n operation)
    let outcome ← (operation.run codec retention n).run
    @Prog.perform (fileInterface ρ P) (.finish n outcome)
    process n operations

/-- Processes on one directory, each with its own retention policy. -/
def processes (retention : ℕ → SessionRetentionPolicy) (calls : List (List (Operation ρ))) :
    List (Prog (fileInterface ρ P) Unit) :=
  calls.mapIdx fun n operations => process codec (retention n) n operations

end Store

end CuTracer.Service.FileStore
