import CuTracer.Library.Dict
import CuTracer.Library.JsonTree
import CuTracer.Library.SortedMap
import Mathlib.Data.Finset.Basic

/-! The runtime identity ledger. It names the lifetimes of contexts, modules, functions
and launches as the driver reports them, and publishes a record of each to a sink that
may fail at any record. An operation that throws keeps what it had done before. The
digest is not code of the repository and stands as a parameter. -/

namespace CuTracer.Runtime

open Json (setField)

/-! ### Records -/

abbrev Fields := List (String × Json)

inductive Event where
  | processStart (process : Json)
  | contextBegin (context : String) (handle : ℕ)
  | contextEnd (context : String) (incompleteLaunches : ℕ)
  | launchIncomplete (launch : String)
  | moduleBegin (context module : String) (handle : ℕ) (loadObserved : Bool) (api : String)
  | moduleEnd (context module : String)
  | unloadWithoutModuleBegin (context : String) (handle : ℕ)
  | function (attributes : Fields)
  | launch (attributes : Fields)
  | driverCompletion (launch : String) (launchId : ℕ) (context : String)
      (kernelCompleted channelDrained traceFooterRequired : Bool)
  | gap (reason : String)
  | plan (type : String) (data : Json)
  | processEnd (pendingLaunches liveContexts : ℕ) (hasGaps : Bool)

structure Record where
  process : String
  sequence : ℕ
  event : Event

/-! ### The ledger -/

structure RuntimeIdentityLimits where
  contexts : ℕ := 1024
  modules : ℕ := 65536
  functions : ℕ := 100000
  pendingLaunches : ℕ := 1000000
  retiredLaunchIds : ℕ := 65536

structure Context where
  key : String
  ordinals : Dict (String × String) ℕ

structure Module where
  key : String
  loadObserved : Bool

structure Launch where
  context : ℕ
  key : String
  captureSelected : Bool

/-- A context and the handle of a module or function in it. -/
abbrev HandleKey := ℕ × ℕ

structure Ledger where
  limits : RuntimeIdentityLimits
  processKey : String
  sequence : ℕ
  contextCounter : ℕ
  moduleCounter : ℕ
  finished : Bool
  gap : Bool
  contexts : Dict ℕ Context
  modules : Dict HandleKey Module
  functions : Dict HandleKey Fields
  failedFunctions : Dict HandleKey String
  pending : Dict ℕ Launch
  retiredLaunchIds : Finset ℕ
  retiredLaunchOrder : List ℕ

/-- The ledger and what happened so far: the records that the sink took, the values that
were digested, and those of them that name the lifetime of a context or a module. -/
structure World extends Ledger where
  published : List Record
  digested : List Json
  begun : List Json

inductive LedgerError where
  | logic (what : String)
  | invalidArgument (what : String)
  | type (what : String)
  | sink
  | capture
  deriving DecidableEq

/-- What an operation returns or throws, and the state that it leaves. -/
abbrev Outcome (α : Type) := Except LedgerError α × World

/-- One statement after another; what is thrown ends the operation. -/
def Outcome.andThen {α β : Type} (x : Outcome α) (f : α → World → Outcome β) : Outcome β :=
  match x with
  | (.ok a, w) => f a w
  | (.error e, w) => (.error e, w)

section Operations

/-! `sink n` tells whether the sink takes the `n`-th record. -/

variable (digest : Json → String) (sink : ℕ → Bool)

def closed {α : Type} (w : World) : Outcome α :=
  (.error (.logic "Runtime identity ledger is closed"), w)

/-- A failure of the sink stays visible as a gap. -/
def emit (event : Event) (w : World) : Outcome Unit :=
  if w.finished then closed w
  else if sink w.sequence then
    (.ok (), { w with
      sequence := w.sequence + 1
      published := w.published ++ [⟨w.processKey, w.sequence, event⟩] })
  else (.error .sink, { w with sequence := w.sequence + 1, gap := true })

def emitAll : List Event → World → Outcome Unit
  | [], w => (.ok (), w)
  | e :: es, w => (emit sink e w).andThen fun _ w => emitAll es w

/-- A recent launch ID stays rejected, within a bounded window. -/
def retireLaunchId (id : ℕ) (l : Ledger) : Ledger :=
  if l.limits.retiredLaunchIds = 0 ∨ id ∈ l.retiredLaunchIds then l
  else
    let ids := insert id l.retiredLaunchIds
    let order := l.retiredLaunchOrder ++ [id]
    if l.limits.retiredLaunchIds < order.length then
      { l with
        retiredLaunchIds := ids.erase (order.headD 0)
        retiredLaunchOrder := order.tail }
    else { l with retiredLaunchIds := ids, retiredLaunchOrder := order }

/-! ### Contexts -/

def contextIdentity (processKey : String) (ordinal handle : ℕ) : Json :=
  .obj [("context_ordinal", .int ordinal), ("handle", .int handle), ("process", .str processKey)]

def contextBegin (handle : ℕ) (w : World) : Outcome String :=
  if w.finished then closed w
  else if handle = 0 ∨ handle ∈ w.contexts.keys ∨ w.limits.contexts ≤ w.contexts.keys.length then
    (.error (.logic "Duplicate invalid or excessive live context"), w)
  else
    let identity := contextIdentity w.processKey w.contextCounter handle
    let key := digest identity
    let w := { w with
      contextCounter := w.contextCounter + 1
      contexts := w.contexts.insert handle ⟨key, Dict.empty⟩
      digested := w.digested ++ [identity]
      begun := w.begun ++ [identity] }
    (emit sink (.contextBegin key handle) w).andThen fun _ w => (.ok key, w)

/-- The pending launches of a context, in the order of their IDs. -/
def launchesOf (handle : ℕ) (l : Ledger) : List (ℕ × Launch) :=
  sortOn Prod.fst (l.pending.entries.filter fun p => p.2.context = handle)

/-- Everything of a context is retired before its records are published. -/
def endContext (handle : ℕ) (l : Ledger) : Ledger :=
  let incomplete := launchesOf handle l
  let retired := (incomplete.map Prod.fst).foldl (fun l id => retireLaunchId id l) l
  { retired with
    pending := l.pending.filter fun _ launch => launch.context ≠ handle
    modules := l.modules.filter fun key _ => key.1 ≠ handle
    functions := l.functions.filter fun key _ => key.1 ≠ handle
    failedFunctions := l.failedFunctions.filter fun key _ => key.1 ≠ handle
    contexts := l.contexts.filter fun h _ => h ≠ handle
    gap := l.gap || !incomplete.isEmpty }

def contextEnd (handle : ℕ) (w : World) : Outcome Unit :=
  if w.finished then closed w
  else match w.contexts.get? handle with
    | none => (.error (.logic "Unknown context lifetime"), w)
    | some context =>
      let incomplete := (launchesOf handle w.toLedger).map fun p => p.2.key
      let w := { w with toLedger := endContext handle w.toLedger }
      (emitAll sink (incomplete.map .launchIncomplete) w).andThen fun _ w =>
        emit sink (.contextEnd context.key incomplete.length) w

/-! ### Modules -/

def moduleIdentity (contextKey : String) (ordinal handle : ℕ) : Json :=
  .obj [("context", .str contextKey), ("handle", .int handle), ("module_ordinal", .int ordinal)]

variable (ctx module : ℕ)

def moduleLocked (api : String) (observed : Bool) (w : World) : Outcome String :=
  match w.contexts.get? ctx with
  | none => (.error (.logic "Unknown context lifetime"), w)
  | some context =>
    if module = 0 then (.error (.logic "Invalid module lifetime"), w)
    else match w.modules.get? (ctx, module) with
      | some known =>
        if observed then
          (.error (.logic "Module loaded without ending its previous lifetime"), w)
        else (.ok known.key, w)
      | none =>
        if w.limits.modules ≤ w.modules.keys.length then
          (.error (.logic "Excessive module lifetimes"), w)
        else
          let identity := moduleIdentity context.key w.moduleCounter module
          let key := digest identity
          let w := { w with
            moduleCounter := w.moduleCounter + 1
            modules := w.modules.insert (ctx, module) ⟨key, observed⟩
            digested := w.digested ++ [identity]
            begun := w.begun ++ [identity] }
          (emit sink (.moduleBegin context.key key module observed api) w).andThen fun _ w =>
            (.ok key, w)

def moduleLoad (api : String) (w : World) : Outcome String :=
  moduleLocked digest sink ctx module api true w

/-- The `module` field of a function. -/
def moduleOf (attributes : Fields) : Option Json := Json.field attributes "module"

def endModule (key : String) (l : Ledger) : Ledger :=
  { l with
    modules := l.modules.filter fun k _ => k ≠ (ctx, module)
    functions := l.functions.filter fun k f => ¬(k.1 = ctx ∧ moduleOf f = some (.str key))
    failedFunctions := l.failedFunctions.filter fun k m => ¬(k.1 = ctx ∧ m = key) }

def moduleUnload (w : World) : Outcome Unit :=
  if w.finished then closed w
  else match w.contexts.get? ctx with
    | none => (.error (.logic "Unknown context lifetime"), w)
    | some context =>
      match w.modules.get? (ctx, module) with
      | none => emit sink (.unloadWithoutModuleBegin context.key module) { w with gap := true }
      | some known =>
        emit sink (.moduleEnd context.key known.key)
          { w with toLedger := endModule ctx module known.key w.toLedger }

/-! ### Functions -/

def functionIdentity (processKey contextKey moduleKey : String) (observed : Bool) (function : ℕ)
    (attributes : Fields) : Fields :=
  setField "function_handle" (.int function)
    (setField "module_load_observed" (.bool observed)
      (setField "module" (.str moduleKey)
        (setField "context" (.str contextKey) (setField "process" (.str processKey) attributes))))

/-- The object of a function, with its two required fields. -/
def functionFields (function : ℕ) (attributes : Json) : Option Fields :=
  match attributes with
  | .obj fields =>
    if function ≠ 0 ∧ (Json.field fields "entry").isSome ∧
        (Json.field fields "cubin_sha256").isSome then some fields
    else none
  | _ => none

def excessiveFunctions (w : World) : Bool :=
  w.limits.functions ≤ w.functions.keys.length + w.failedFunctions.keys.length

/-- A function that could not be captured or published is unavailable. -/
def failFunction (key : HandleKey) (moduleKey : String) (w : World) : World :=
  { w with failedFunctions := w.failedFunctions.upsert key fun old => old.getD moduleKey }

/-- What `function_locked` does once the module is known. -/
def serveFunction (ctx function : ℕ) (contextKey moduleKey : String) (observed : Bool)
    (fields : Fields) (w : World) : Outcome Fields :=
  if (ctx, function) ∈ w.failedFunctions.keys then
    (.error (.logic "Function identity unavailable until its module ends"), w)
  else
    let identity := functionIdentity w.processKey contextKey moduleKey observed function fields
    let attributes := setField "function" (.str (digest (.obj identity))) identity
    let w := { w with digested := w.digested ++ [.obj identity] }
    match w.functions.get? (ctx, function) with
    | some known =>
      if known ≠ attributes then
        (.error (.logic "Live function changed identity without unload"), w)
      else (.ok known, w)
    | none =>
      if excessiveFunctions w then (.error (.logic "Excessive function inventory"), w)
      else match emit sink (.function attributes) w with
        | (.error e, w) => (.error e, failFunction (ctx, function) moduleKey w)
        | (.ok _, w) =>
          (.ok attributes, { w with functions := w.functions.insert (ctx, function) attributes })

def functionLocked (ctx module function : ℕ) (attributes : Json) (w : World) : Outcome Fields :=
  if w.finished then closed w
  else match functionFields function attributes with
    | none => (.error (.invalidArgument "Incomplete function identity"), w)
    | some fields =>
      (moduleLocked digest sink ctx module "first_seen_function" false w).andThen fun moduleKey w =>
        match w.contexts.get? ctx, w.modules.get? (ctx, module) with
        | some context, some known =>
          serveFunction digest sink ctx function context.key moduleKey known.loadObserved fields w
        | _, _ => (.error (.logic "Unknown context lifetime"), w)

/-- `capture` is the callback, which returns attributes or throws. A null identity is
returned where an earlier capture failed. -/
def captureFunction (ctx module function : ℕ) (capture : Option (Option Json)) (w : World) :
    Outcome (Option Fields) :=
  if w.finished then closed w
  else match capture with
    | none => (.error (.invalidArgument "Function handle and capture callback required"), w)
    | some captured =>
      if function = 0 then
        (.error (.invalidArgument "Function handle and capture callback required"), w)
      else
        (moduleLocked digest sink ctx module "first_seen_function" false w).andThen
          fun moduleKey w =>
            match w.failedFunctions.get? (ctx, function), w.functions.get? (ctx, function) with
            | some failed, _ =>
              if failed ≠ moduleKey then
                (.error (.logic "Live function changed module without unload"), w)
              else (.ok none, w)
            | none, some known =>
              if moduleOf known ≠ some (.str moduleKey) then
                (.error (.logic "Live function changed module without unload"), w)
              else (.ok (some known), w)
            | none, none =>
              if excessiveFunctions w then (.error (.logic "Excessive function inventory"), w)
              else
                let outcome : Outcome Fields := match captured with
                  | none => (.error .capture, w)
                  | some attributes => functionLocked digest sink ctx module function attributes w
                match outcome with
                | (.error e, w) =>
                  (.error e, { failFunction (ctx, function) moduleKey w with gap := true })
                | (.ok fields, w) => (.ok (some fields), w)

/-! ### Launches -/

/-- `attributes.value("capture_selected", true)`. -/
def captureSelected (attributes : Fields) : Option Bool :=
  match Json.field attributes "capture_selected" with
  | none => some true
  | some (.bool b) => some b
  | some _ => none

/-- A string field of the function that a launch belongs to. -/
def bindingText (binding : Fields) (key : String) : Option String :=
  match Json.field binding key with
  | some (.str s) => some s
  | _ => none

def launchIdentity (processKey contextKey : String) (binding : Fields) (id ordinal : ℕ)
    (attributes : Fields) : Fields :=
  let bound (key : String) : Json := (Json.field binding key).getD .null
  setField "kernel_ordinal" (.int ordinal)
    (setField "launch_id" (.int id)
      (setField "cubin_sha256" (bound "cubin_sha256")
        (setField "entry" (bound "entry")
          (setField "function" (bound "function")
            (setField "module" (bound "module")
              (setField "context" (.str contextKey)
                (setField "process" (.str processKey) attributes)))))))

/-- What `launch` does with a launch that it accepts: the ordinal is counted before the
record is published. -/
def publishLaunch (ctx id : ℕ) (context : Context) (binding fields : Fields) (selected : Bool)
    (ordinalKey : String × String) (w : World) : Outcome Fields :=
  let ordinal := (context.ordinals.get? ordinalKey).getD 0
  let identity := launchIdentity w.processKey context.key binding id ordinal fields
  let key := digest (.obj identity)
  let attributes := setField "launch" (.str key) identity
  let counted : Context :=
    { context with ordinals := context.ordinals.upsert ordinalKey fun n => n.getD 0 + 1 }
  let w := { w with
    contexts := w.contexts.insert ctx counted
    digested := w.digested ++ [.obj identity] }
  match emit sink (.launch attributes) w with
  | (.error e, w) => (.error e, { w with toLedger := retireLaunchId id w.toLedger })
  | (.ok _, w) => (.ok attributes, { w with pending := w.pending.insert id ⟨ctx, key, selected⟩ })

def launch (ctx function id : ℕ) (attributes : Json) (w : World) : Outcome Fields :=
  if w.finished then closed w
  else match w.contexts.get? ctx with
    | none => (.error (.logic "Unknown context lifetime"), w)
    | some context =>
      match w.functions.get? (ctx, function), attributes with
      | some binding, .obj fields =>
        if id ∈ w.pending.keys ∨ id ∈ w.retiredLaunchIds then
          (.error (.logic "Duplicate launch ID"), w)
        else if w.limits.pendingLaunches ≤ w.pending.keys.length then
          (.error (.logic "Excessive in-flight launches"), w)
        else match captureSelected fields, bindingText binding "cubin_sha256",
            bindingText binding "entry" with
          | some selected, some cubin, some entry =>
            publishLaunch digest sink ctx id context binding fields selected (cubin, entry) w
          | _, _, _ => (.error (.type "type must be boolean or string"), w)
      | _, _ => (.error (.logic "Launch lacks function identity"), w)

def complete (ctx id : ℕ) (completed drained : Bool) (w : World) : Outcome Unit :=
  match w.pending.get? id, w.contexts.get? ctx with
  | some known, some context =>
    if known.context ≠ ctx then
      (.error (.logic "Completion does not identify a pending launch in this context"), w)
    else
      (emit sink (.driverCompletion known.key id context.key completed drained
        known.captureSelected) w).andThen fun _ w =>
          (.ok (), { w with
            toLedger := { retireLaunchId id w.toLedger with
              gap := w.gap || !completed || !drained
              pending := w.pending.filter fun i _ => i ≠ id } })
  | none, _ => (.error (.logic "Completion does not identify a pending launch in this context"), w)
  | some known, none =>
    if known.context ≠ ctx then
      (.error (.logic "Completion does not identify a pending launch in this context"), w)
    else (.error (.logic "Unknown context lifetime"), w)

/-! ### Gaps and the end -/

def markGap (reason : String) (w : World) : Outcome Unit :=
  emit sink (.gap reason) { w with gap := true }

def planTypes : List String :=
  ["plan_loaded", "plan_applied", "plan_capture_completion", "plan_gap", "plan_error"]

def planEvent (type : String) (data : Json) (w : World) : Outcome Unit :=
  if type ∉ planTypes then (.error (.invalidArgument "Unknown plan runtime event"), w)
  else if w.finished then closed w
  else
    emit sink (.plan type data)
      { w with gap := w.gap || type = "plan_gap" || type = "plan_error" }

def finish (w : World) : Outcome Unit :=
  if w.finished then (.ok (), w)
  else
    (emit sink (.processEnd w.pending.keys.length w.contexts.keys.length
      (w.gap || !w.pending.keys.isEmpty)) w).andThen fun _ w => (.ok (), { w with finished := true })

/-! ### Runs -/

inductive Call where
  | contextBegin (handle : ℕ)
  | contextEnd (handle : ℕ)
  | moduleLoad (context module : ℕ) (api : String)
  | moduleUnload (context module : ℕ)
  | function (context module function : ℕ) (attributes : Json)
  | captureFunction (context module function : ℕ) (capture : Option (Option Json))
  | launch (context function launchId : ℕ) (attributes : Json)
  | complete (context launchId : ℕ) (kernelCompleted channelDrained : Bool)
  | gap (reason : String)
  | planEvent (type : String) (data : Json)
  | finish

/-- The state after a call, whether it returned or threw. -/
def step (c : Call) (w : World) : World :=
  match c with
  | .contextBegin handle => (contextBegin digest sink handle w).2
  | .contextEnd handle => (contextEnd sink handle w).2
  | .moduleLoad ctx module api => (moduleLoad digest sink ctx module api w).2
  | .moduleUnload ctx module => (moduleUnload sink ctx module w).2
  | .function ctx module function attributes =>
    (functionLocked digest sink ctx module function attributes w).2
  | .captureFunction ctx module function capture =>
    (captureFunction digest sink ctx module function capture w).2
  | .launch ctx function id attributes => (launch digest sink ctx function id attributes w).2
  | .complete ctx id completed drained => (complete sink ctx id completed drained w).2
  | .gap reason => (markGap sink reason w).2
  | .planEvent type data => (planEvent sink type data w).2
  | .finish => (finish sink w).2

/-- The constructor: it publishes the process, and there is no ledger if that fails. -/
def create (process : Json) (limits : RuntimeIdentityLimits) : Outcome Unit :=
  let w : World :=
    { limits, processKey := digest process, sequence := 0, contextCounter := 0, moduleCounter := 0
      finished := false, gap := false, contexts := Dict.empty, modules := Dict.empty
      functions := Dict.empty, failedFunctions := Dict.empty, pending := Dict.empty
      retiredLaunchIds := ∅, retiredLaunchOrder := [], published := [], digested := [process]
      begun := [] }
  match process with
  | .obj _ => emit sink (.processStart process) w
  | _ => (.error (.invalidArgument "Process object and runtime event sink required"), w)

/-- The states of a ledger after a sequence of calls. -/
def run (w : World) (calls : List Call) : World := calls.foldl (fun w c => step digest sink c w) w

end Operations

end CuTracer.Runtime
