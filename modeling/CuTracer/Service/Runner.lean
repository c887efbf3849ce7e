import CuTracer.Library.Program
import CuTracer.Service.Steps

/-! The local driver of a session. It runs one effect after another and saves the session after
each, and after each experiment; what it still has to do is not saved, but found again when it
resumes. A crash stops it between any two of its actions. -/

namespace CuTracer.Service.Runner

inductive PortError where
  /-- What the driver catches of the port: of a sink an `OSError`, of an executor also a
  `SubprocessError` or a `KernelDiscoveryError`. -/
  | infrastructure (message : String)
  | other (message : String)

inductive Action where
  | clock
  | execute (spec : ExperimentSpec)
  | analyze (session : Stored)
  | decide (session : Stored)
  | publish (session : Stored)
  | record (baseline : ScopeBaseline)
  | save (session : Stored)

/-- What an action returns where it does not raise. -/
def Action.Value : Action → Type
  | .clock => ℤ
  | .execute _ => ExperimentResult
  | .analyze _ => AnalysisDecision
  | .decide _ => TriageVerdict
  | .publish _ | .record _ | .save _ => Unit

def interface : Interface := ⟨Action, fun action => Except PortError action.Value⟩

inductive Fault where
  | port (error : PortError)
  | service (error : ServiceError)
  /-- The transition safety limit. -/
  | limit

abbrev Program := ExceptT Fault (Prog interface)

def attempt (action : Action) : Program (Except PortError action.Value) :=
  ExceptT.lift (@Prog.perform interface action)

/-- An action whose exceptions are not caught. -/
def perform (action : Action) : Program action.Value := do
  match ← attempt action with
  | .ok a => return a
  | .error e => throw (.port e)

def raised {α : Type} : Except ServiceError α → Program α
  | .ok a => pure a
  | .error e => throw (.service e)

/-! ### The driver -/

/-- The arguments of a call that resumes a session. -/
structure Resume where
  deadlineMs : Option ℤ
  /-- `sink is not None`. -/
  sink : Bool

section Driver

variable (h : Hashes) (guard : ExperimentGuardPolicy) (policy : TriagePolicy)
  (str : ServiceError → String) (resume : Resume)

/-- `deadline_ms is not None and clock_ms() >= deadline_ms`. -/
def expired : Program Bool :=
  match resume.deadlineMs with
  | none => return false
  | some deadline => do
    let now : ℤ ← perform .clock
    return decide (deadline ≤ now)

/-- `_checkpoint`. A transition that changes nothing returns the session that it was given, any
other a copy that differs. -/
def checkpoint (previous : Stored) (session : AnalysisSession) (snapshot : Option TriageSnapshot) :
    Program Stored :=
  if session = previous.session then return previous
  else do
    let current : Stored := ⟨session, snapshot, previous.revision + 1⟩
    perform (.save current)
    return current

/-- A checkpoint of `record_infrastructure_failure`. -/
def failed (current : Stored) (reason : String) : Program (Stored × List SessionEffect) := do
  let t ← raised (recordInfrastructureFailure current.session reason)
  return (← checkpoint current t.session current.snapshot, [])

/-- What `_run_experiment_batch` makes of the reply of the executor; the session of a result that
is accepted goes on. -/
def executed (current : Stored) (next : Stored → List SessionEffect → Program (Stored × List SessionEffect)) :
    Except PortError ExperimentResult → Program (Stored × List SessionEffect)
  | .error (.infrastructure message) => failed current message
  | .error error => throw (.port error)
  | .ok result =>
    match recordExperimentResult current.session result with
    | .error (.rejected code message args) => failed current (str (.rejected code message args))
    | .error error => throw (.service error)
    | .ok t => do next (← checkpoint current t.session current.snapshot) t.effects

/-- `_run_experiment_batch`, with the effects so far. -/
def runExperimentBatch (current : Stored) (effects : List SessionEffect) :
    List ExperimentSpec → Program (Stored × List SessionEffect)
  | [] => return (current, effects)
  | spec :: experiments => do
    if ← expired resume then return (current, effects)
    else
      executed str current
        (fun next generated => runExperimentBatch next (effects ++ generated) experiments)
        (← attempt (.execute spec))

/-- `self._baselines.record` of each. -/
def recordEach : List ScopeBaseline → Program Unit
  | [] => return ()
  | baseline :: baselines => do
    perform (.record baseline)
    recordEach baselines

variable (session : Stored)

/-- What `_run_effect` makes of the reply of the sink. -/
def published : Except PortError Unit → Program (Stored × List SessionEffect)
  | .error (.infrastructure message) => do
    let t ← raised (recordReportPublicationFailed session.session message)
    return (← checkpoint session t.session session.snapshot, [])
  | .error error => throw (.port error)
  | .ok _ => do
    let t ← raised (recordReportPublished session.session none)
    recordEach (publishedBaselines policy { session with session := t.session })
    return (← checkpoint session t.session session.snapshot, [])

/-- The report is acknowledged where there is no sink. -/
def acknowledged : Program (Stored × List SessionEffect) := do
  let t ← raised (recordReportPublished session.session none)
  return (← checkpoint session t.session session.snapshot, [])

/-- The branch of `_run_effect` that publishes a report. -/
def publishReport : Program (Stored × List SessionEffect) := do
  raised (checkReportable session.session)
  if resume.sink then published policy session (← attempt (.publish session))
  else acknowledged session

/-- What `_run_effect` makes of the reply of the reasoner. -/
def analyzed : Except PortError AnalysisDecision → Program (Stored × List SessionEffect)
  | .error (.infrastructure message) => failed session message
  | .error error => throw (.port error)
  | .ok decision => do
    let t ← raised (recordAnalysisDecision h guard session.session decision)
    return (← checkpoint session t.session session.snapshot, t.effects)

/-- What `_run_effect` makes of a triage decision. -/
def triaged (verdict : TriageVerdict) : Program (Stored × List SessionEffect) := do
  let t ← raised (recordTriageDecision session.session verdict.toTriageDecision)
  return (← checkpoint session t.session (some verdict.snapshot), t.effects)

def runEffect : SessionEffect → Program (Stored × List SessionEffect)
  | .runTriage => do triaged session (← perform (.decide session))
  | .submitExperiments experiments => runExperimentBatch str resume session [] experiments
  | .runReasoner => do analyzed h guard session (← attempt (.analyze session))
  | .publishReport => publishReport policy resume session
  | .createChildSessions => throw (.service (.value "unknown effect kind: %s" ["create_child_sessions"]))

/-- The loop of `resume_local_session`, with the steps left. -/
def drive (steps : ℕ) (current : Stored) : List SessionEffect → Program Stored
  | [] => return current
  | effect :: effects =>
    match steps with
    | 0 => throw .limit
    | steps + 1 =>
      if effect = .createChildSessions then return current
      else do
        if ← expired resume then return current
        else
          let (next, generated) ← runEffect h guard policy str resume current effect
          drive steps next (effects ++ generated)

/-- A run that is given so many steps. -/
def resumeWithin (steps : ℕ) (session : Stored) : Program Stored :=
  drive h guard policy str resume steps session (resumeSession session.session).effects

def resumeLocalSession : Program Stored :=
  resumeWithin h guard policy str resume 100 session

end Driver

/-! ### Runs -/

inductive Event where
  | executed (spec : ExperimentSpec)
  | published (session : Stored)
  | recorded (baseline : ScopeBaseline)
  | saved (session : Stored)

/-- The session that was saved last, and what has happened. -/
structure World where
  saved : Stored
  log : List Event

/-- An action may raise, with or without its effect. -/
inductive Does : World → (action : Action) → Except PortError action.Value → World → Prop where
  | clock {w : World} {now : ℤ} : Does w .clock (.ok now) w
  | execute {w : World} {spec : ExperimentSpec} {reply : Except PortError ExperimentResult} :
    Does w (.execute spec) reply { w with log := w.log ++ [.executed spec] }
  | analyze {w : World} {s : Stored} {reply : Except PortError AnalysisDecision} :
    Does w (.analyze s) reply w
  | decide {w : World} {s : Stored} {reply : Except PortError TriageVerdict} :
    Does w (.decide s) reply w
  | publish {w : World} {s : Stored} {reply : Except PortError Unit} :
    Does w (.publish s) reply { w with log := w.log ++ [.published s] }
  | record {w : World} {b : ScopeBaseline} {reply : Except PortError Unit} :
    Does w (.record b) reply { w with log := w.log ++ [.recorded b] }
  | save {w : World} {s : Stored} {reply : Except PortError Unit} :
    Does w (.save s) reply ⟨s, w.log ++ [.saved s]⟩
  | fault {w : World} {action : Action} {error : PortError} : Does w action (.error error) w

end CuTracer.Service.Runner
