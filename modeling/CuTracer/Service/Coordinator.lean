import CuTracer.Library.Program
import CuTracer.Library.Versioned
import CuTracer.Service.Steps

/-! The coordinator of a deployed session. A callback loads the session, reduces it and swaps
the outcome in, again if another callback was faster, and then dispatches the effects, some of
which update the session once more. The store and the ports are atomic actions. -/

namespace CuTracer.Service

/-! ### The store and the ports -/

/-- What a callback can raise. -/
inductive Fault where
  /-- `StoreConflict`. -/
  | conflict
  /-- `StoreUnavailable` or `SessionNotFound`. -/
  | store (message : String)
  | service (error : ServiceError)
  | runtime (message : String)
  /-- An exception of a port. -/
  | port (message : String)
  /-- `RecursionError`. -/
  | recursion

/-- An envelope, whose result is that of its experiment. -/
structure ExperimentEnvelope where
  sessionId : String
  experimentId : String
  analyzedStateRevision : ℕ
  dispatchKey : String
  result : ExperimentResult
  result_id : result.experimentId = experimentId

/-- What an `_apply` is called with. -/
inductive Update where
  | envelope (envelope : ExperimentEnvelope)
  | result (result : ExperimentResult)
  | decision (revision : ℕ) (decision : AnalysisDecision)
  | infrastructureFailure (revision : ℕ) (reason : String)
  | publicationFailure (revision : ℕ) (reason : String)
  | triage
  | published (artifact : Option ArtifactRef)
  | childrenStarted (ids : List String)

inductive Call where
  | beforeDispatch
  | submit (revision : ℕ) (experiments : List ExperimentSpec)
  | reasoner (revision : ℕ)
  | publish (stored : Stored)
  | record (baseline : ScopeBaseline)
  | startChild (stored : Stored) (id : String)
  | decide (stored : Stored)

def Call.Reply : Call → Type
  | .publish _ => Option ArtifactRef
  | .decide _ => TriageVerdict
  | _ => Unit

structure Label where
  caller : ℕ
  update : Update
  command : Command

inductive StoreAction where
  | load
  | compareAndSwap (expectedRevision : ℕ) (session : Stored) (label : Label)
  | port (call : Call)

/-- What an action returns where it does not raise. -/
def StoreAction.Value : StoreAction → Type
  | .load => Stored
  | .compareAndSwap _ _ _ => Unit
  | .port call => call.Reply

def coordinatorInterface : Interface := ⟨StoreAction, fun action => Except Fault action.Value⟩

abbrev Program := ExceptT Fault (Prog coordinatorInterface)

def perform (action : StoreAction) : Program action.Value :=
  ExceptT.mk (@Prog.perform coordinatorInterface action)

def load : Program Stored := perform .load

def compareAndSwap (expectedRevision : ℕ) (session : Stored) (label : Label) : Program Unit :=
  perform (.compareAndSwap expectedRevision session label)

def call (c : Call) : Program c.Reply := perform (.port c)

def raised {α : Type} : Except ServiceError α → Program α
  | .ok a => pure a
  | .error e => throw (.service e)

/-! ### The coordinator -/

/-- A transition, the command it is of and the snapshot that then belongs to the session. -/
structure Reduced where
  command : Command
  transition : Transition
  snapshot : Option TriageSnapshot

section Coordinator

variable (h : Hashes) (guard : ExperimentGuardPolicy) (policy : TriagePolicy)
  (childId : AnalysisSession → KernelId → String)

/-- A transition of a stored session that leaves its triage decision alone. -/
def reduceBy (current : Stored) (command : Command) : Program Reduced := do
  let t ← raised (step h guard current.session command)
  return ⟨command, t, current.snapshot⟩

/-- `_record_triage_if_pending` of a session that is pending. -/
def reduceTriage (current : Stored) : Program Reduced := do
  let verdict ← call (.decide current)
  let t ← raised (step h guard current.session (.triageDecision verdict.toTriageDecision))
  return ⟨.triageDecision verdict.toTriageDecision, t, some verdict.snapshot⟩

/-- The reducer of an update, and whether a callback that tells is then accepted; none where it
returns the session as it is, without effects. -/
def reduce (update : Update) (current : Stored) : Program (Option Reduced × Bool) :=
  match update with
  | .envelope e =>
    if e.analyzedStateRevision > current.revision then
      throw (.service (.rejected "future_dispatch_revision"
        "experiment callback was dispatched from a future session revision" []))
    else do
      let reduced ← reduceBy h guard current (.experimentResult e.result)
      return (some reduced, e.experimentId ∉ current.session.completedExperimentIds)
  | .result r => do return (some (← reduceBy h guard current (.experimentResult r)), false)
  | .decision revision decision =>
    if current.revision ≠ revision then return (none, false)
    else do return (some (← reduceBy h guard current (.analysisDecision decision)), true)
  | .infrastructureFailure revision reason =>
    if current.revision = revision ∧ ¬current.session.status.terminal then do
      return (some (← reduceBy h guard current (.infrastructureFailure reason)), true)
    else return (none, false)
  | .publicationFailure revision reason =>
    if current.revision = revision ∧ current.session.reportPublication = .pending then do
      return (some (← reduceBy h guard current (.reportPublicationFailed reason)), true)
    else return (none, false)
  | .triage =>
    if current.session.status ≠ .waitingTriage then return (none, false)
    else do return (some (← reduceTriage h guard current), false)
  | .published artifact => do
    return (some (← reduceBy h guard current (.reportPublished artifact)), false)
  | .childrenStarted ids => do
    return (some (← reduceBy h guard current (.discoveryChildrenStarted ids)), false)

/-- `_apply`, with the attempts left, its dispatcher and whether its callback is accepted. A
conflict is retried, be it of the swap or from within the dispatch. -/
def applyWith (dispatch : Stored → List SessionEffect → Program Stored) (caller : ℕ) (update : Update) :
    ℕ → Program (Stored × Bool)
  | 0 => throw (.runtime "session update contention exceeded retry limit")
  | attempts + 1 => do
    let current ← load
    let (reduced, accepted) ← reduce h guard update current
    match reduced with
    | none => return (current, accepted)
    | some r =>
      if r.transition.effects = [] ∧ r.transition.session = current.session then
        return (current, accepted)
      else
        let next : Stored := ⟨r.transition.session, r.snapshot, current.revision + 1⟩
        tryCatch (do
            compareAndSwap current.revision next ⟨caller, update, r.command⟩
            let session ← dispatch next r.transition.effects
            return (session, accepted))
          fun fault =>
            match fault with
            | .conflict => applyWith dispatch caller update attempts
            | fault => throw fault

/-- `start` of every child; what they raise is collected. -/
def startChildren (stored : Stored) : List String → Program (List String)
  | [] => return []
  | id :: ids => do
    call .beforeDispatch
    let failure ← tryCatch (do call (.startChild stored id); return []) fun _ => return [id]
    return failure ++ (← startChildren stored ids)

def createDiscoveryChildren (apply : Update → Program (Stored × Bool)) (parent : Stored) :
    Program Stored :=
  match parent.session.evidence.discovery with
  | [result] =>
    match result.discovery with
    | none => throw (.service (.value "discovery parent has no successful manifest" []))
    | some manifest =>
      if parent.session.childStressOptions.isNone then
        throw (.service (.value "discovery parent has no child stress policy" []))
      else if parent.session.unit.kernel.isSome then
        throw (.service (.value "cannot fan out an already pinned WorkUnit" []))
      else do
        let ids := manifest.kernels.map (childId parent.session)
        let failures ← startChildren parent ids
        if failures ≠ [] then throw (.runtime "discovery fanout failed")
        else
          let (session, _) ← apply (.childrenStarted ids)
          return session
  | _ => throw (.service (.value "discovery parent must contain exactly one result" []))

/-- `self._baselines.record` of each. -/
def recordEach : List ScopeBaseline → Program Unit
  | [] => return ()
  | baseline :: baselines => do
    call (.record baseline)
    recordEach baselines

/-- The branch of `_dispatch` that publishes a report. -/
def publishReport (apply : Update → Program (Stored × Bool)) (stored : Stored) : Program Stored := do
  raised (checkReportable stored.session)
  let artifact ← call (.publish stored)
  let published ← raised (recordReportPublished stored.session artifact)
  recordEach (publishedBaselines policy { stored with session := published.session })
  let (session, _) ← apply (.published artifact)
  return session

/-- The loop of `_dispatch`. -/
def dispatchEach (apply : Update → Program (Stored × Bool)) (stored : Stored) :
    List SessionEffect → Program Stored
  | [] => return stored
  | effect :: effects => do
    call .beforeDispatch
    match effect with
    | .submitExperiments experiments =>
      call (.submit stored.revision experiments)
      dispatchEach apply stored effects
    | .runTriage => dispatchEach apply stored effects
    | .createChildSessions =>
      dispatchEach apply (← createDiscoveryChildren childId apply stored) effects
    | .runReasoner =>
      call (.reasoner stored.revision)
      dispatchEach apply stored effects
    | .publishReport => dispatchEach apply (← publishReport policy apply stored) effects

/-- `_dispatch`. -/
def dispatchWith (apply : Update → Program (Stored × Bool)) (stored : Stored)
    (effects : List SessionEffect) : Program Stored :=
  if .runTriage ∈ effects ∧ effects.length ≠ 1 then
    throw (.service (.value "RUN_TRIAGE must be the only effect in a transition" []))
  else if .createChildSessions ∈ effects ∧ effects.length ≠ 1 then
    throw (.service (.value "CREATE_CHILD_SESSIONS must be the only effect in a transition" []))
  else do
    let session ← dispatchEach policy childId apply stored effects
    if .runTriage ∈ effects then
      let (session, _) ← apply .triage
      return session
    else return session

def maxCasAttempts : ℕ := 8

/-- `_apply`; `depth` updates may be nested before the interpreter stops. -/
def apply (caller : ℕ) : ℕ → Update → Program (Stored × Bool)
  | 0, _ => throw .recursion
  | depth + 1, update =>
    applyWith h guard (dispatchWith policy childId (apply caller depth)) caller update maxCasAttempts

inductive Callback where
  | experimentResult (result : ExperimentResult)
  | experimentEnvelope (envelope : ExperimentEnvelope)
  | reasoningDecision (revision : ℕ) (decision : AnalysisDecision)
  | infrastructureFailure (revision : ℕ) (reason : String)
  | reportPublicationFailure (revision : ℕ) (reason : String)
  | resume

def Callback.update : Callback → Option Update
  | .experimentResult result => some (.result result)
  | .experimentEnvelope envelope => some (.envelope envelope)
  | .reasoningDecision revision decision => some (.decision revision decision)
  | .infrastructureFailure revision reason => some (.infrastructureFailure revision reason)
  | .reportPublicationFailure revision reason => some (.publicationFailure revision reason)
  | .resume => none

/-- A callback: the session it returns and whether it was accepted. -/
def Callback.run (caller depth : ℕ) (callback : Callback) : Program (Stored × Bool) :=
  match callback.update with
  | some update => apply h guard policy childId caller depth update
  | none => do
    let current ← load
    let session ← dispatchWith policy childId (apply h guard policy childId caller depth) current
      (resumeSession current.session).effects
    return (session, false)

end Coordinator

/-! ### Runs -/

structure Write extends Versioned.Written Stored where
  label : Label

inductive Event where
  | wrote (w : Write)
  | called (call : Call) (succeeded : Bool)

/-- The stored session, and what has happened. -/
structure World where
  stored : Stored
  log : List Event

/-- An action of a linearizable store or of a port. A swap that finds another revision does
not happen, and any action may raise, a swap also after it was made. -/
inductive Does : World → (action : StoreAction) → Except Fault action.Value → World → Prop where
  | load {w : World} : Does w .load (.ok w.stored) w
  | swap {w : World} {expectedRevision : ℕ} {next : Stored} {label : Label}
    {reply : Except Fault Unit} (hrevision : w.stored.revision = expectedRevision) :
    Does w (.compareAndSwap expectedRevision next label) reply
      ⟨next, w.log ++ [.wrote ⟨⟨w.stored, next⟩, label⟩]⟩
  | call {w : World} {c : Call} {reply : c.Reply} :
    Does w (.port c) (.ok reply) { w with log := w.log ++ [.called c true] }
  | callFault {w : World} {c : Call} {fault : Fault} :
    Does w (.port c) (.error fault) { w with log := w.log ++ [.called c false] }
  | fault {w : World} {action : StoreAction} {fault : Fault} : Does w action (.error fault) w

end CuTracer.Service
