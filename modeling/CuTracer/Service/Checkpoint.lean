import CuTracer.Library.Program
import CuTracer.Service.Catalog
import CuTracer.Service.ResultWire

/-! The terminal checkpoint of an experiment: an envelope with its result, and a marker with the
SHA-256 of the envelope, each a file that is replaced by renaming. A call may be stopped after any
file operation. Only a marker commits, and it is read with the envelope that it was written for. -/

namespace CuTracer.Service.Checkpoint

open Wire

/-! ### Bindings and envelopes -/

def experimentDispatchKey (sessionId experimentId : String) (analyzedStateRevision : ℤ) : String :=
  "dispatch-" ++ sha256Text (Json.dump true (.obj [("analyzed_state_revision", .int analyzedStateRevision),
    ("experiment_id", .str experimentId), ("session_id", .str sessionId)]))

/-- `ExperimentDispatchBinding`, as its constructor accepts it. -/
structure ExperimentDispatchBinding where
  sessionId : String
  experimentId : String
  analyzedStateRevision : ℤ
  dispatchKey : String
  session_ne : blank sessionId = false
  experiment_ne : blank experimentId = false
  revision_nonneg : 0 ≤ analyzedStateRevision
  key_eq : dispatchKey = experimentDispatchKey sessionId experimentId analyzedStateRevision
  deriving DecidableEq

/-- `ExperimentDispatchBinding(...)`; a revision that is no integer is refused. -/
def ExperimentDispatchBinding.make (sessionId experimentId : String) (revision : Wire)
    (dispatchKey : String) : Decoding ExperimentDispatchBinding :=
  if hsession : blank sessionId = false then
    if hexperiment : blank experimentId = false then
      match revision with
      | .int analyzedStateRevision =>
        if hrevision : 0 ≤ analyzedStateRevision then
          if hkey : dispatchKey = experimentDispatchKey sessionId experimentId analyzedStateRevision then
            .ok ⟨sessionId, experimentId, analyzedStateRevision, dispatchKey, hsession, hexperiment,
              hrevision, hkey⟩
          else .error (.value "dispatch_key does not match experiment binding")
        else .error (.value "analyzed_state_revision must be non-negative")
      | _ => .error (.value "analyzed_state_revision must be an integer")
    else .error (.value "experiment binding requires experiment_id")
  else .error (.value "experiment binding requires session_id")

/-- `ExperimentEnvelope`, as its constructor accepts it; the fields of a binding are its binding. -/
structure ExperimentEnvelope where
  binding : ExperimentDispatchBinding
  result : ExperimentResult
  matched : result.experimentId = binding.experimentId
  deriving DecidableEq

/-- `ExperimentEnvelope.bind`. -/
def ExperimentEnvelope.bind (binding : ExperimentDispatchBinding) (result : ExperimentResult) :
    Decoding ExperimentEnvelope :=
  if h : result.experimentId = binding.experimentId then .ok ⟨binding, result, h⟩
  else .error (.value "envelope result does not match experiment_id")

variable (float : ℚ → ℚ)

def ExperimentEnvelope.toWire (e : ExperimentEnvelope) : Wire :=
  .obj [("schema_version", .int 1), ("session_id", .str e.binding.sessionId),
    ("experiment_id", .str e.binding.experimentId),
    ("analyzed_state_revision", .int e.binding.analyzedStateRevision),
    ("dispatch_key", .str e.binding.dispatchKey), ("result", e.result.toWire float)]

def ExperimentEnvelope.fromWire (d : Wire) : Decoding ExperimentEnvelope := do
  let sessionId ← d.item "session_id" asStr
  let experimentId ← d.item "experiment_id" asStr
  let revision ← d.item "analyzed_state_revision" .ok
  let dispatchKey ← d.item "dispatch_key" asStr
  let result ← d.item "result" (ExperimentResult.fromWire float)
  asVersion 1 "unsupported ExperimentEnvelope schema_version" (← d.getOr "schema_version" (.int 0) .ok)
  bind (← ExperimentDispatchBinding.make sessionId experimentId revision dispatchKey) result

inductive ResultType where
  | discovery | sanitizer | stress | trace | reduction
  deriving DecidableEq

def resultType : ExperimentResult → ResultType
  | .discovery _ => .discovery
  | .sanitizer _ => .sanitizer
  | .stress _ => .stress
  | .trace _ => .trace
  | .reduction _ => .reduction

/-! ### Markers -/

/-- `_sha256`: 64 lowercase hexadecimal digits. -/
def isSha256 (value : String) : Bool :=
  value.length = 64 && value.toList.all fun c => "0123456789abcdef".toList.contains c

/-- `TerminalCheckpointMarker`, as its constructor accepts it. -/
structure TerminalCheckpointMarker where
  dispatchKey : String
  envelopeSha256 : String
  key_ne : blank dispatchKey = false
  sha : isSha256 envelopeSha256 = true

def TerminalCheckpointMarker.make (dispatchKey envelopeSha256 : String) : Decoding TerminalCheckpointMarker :=
  if hkey : blank dispatchKey = false then
    if hsha : isSha256 envelopeSha256 = true then .ok ⟨dispatchKey, envelopeSha256, hkey, hsha⟩
    else .error (.value "checkpoint envelope_sha256 must be lowercase SHA-256")
  else .error (.value "checkpoint marker requires dispatch_key")

def TerminalCheckpointMarker.toWire (m : TerminalCheckpointMarker) : Wire :=
  .obj [("dispatch_key", .str m.dispatchKey), ("envelope_sha256", .str m.envelopeSha256),
    ("schema_version", .int 1)]

/-- What is no string or no integer is refused with a message of its own. -/
def TerminalCheckpointMarker.fromWire : Wire → Decoding TerminalCheckpointMarker
  | .obj fields => do
    let expected := ["schema_version", "dispatch_key", "envelope_sha256"]
    let keys := fields.map Prod.fst
    reject (!(keys.all expected.contains && expected.all keys.contains))
      "checkpoint marker has unexpected fields"
    let version ← item (.obj fields) "schema_version" .ok
    let dispatchKey ← item (.obj fields) "dispatch_key" .ok
    let envelopeSha256 ← item (.obj fields) "envelope_sha256" .ok
    match version, dispatchKey, envelopeSha256 with
    | .int version, .str dispatchKey, .str envelopeSha256 =>
      reject (version ≠ 1) "unsupported checkpoint schema_version"
      make dispatchKey envelopeSha256
    | .int _, .str _, _ => throw (.value "checkpoint envelope_sha256 must be a string")
    | .int _, _, _ => throw (.value "checkpoint dispatch_key must be a string")
    | _, _, _ => throw (.value "checkpoint schema_version must be an integer")
  | _ => .error .type

/-! ### The directory -/

/-- What a file holds: a document, or a text that is none. -/
inductive Content where
  | torn (text : String)
  | document (d : Wire)

/-- `ENVELOPE_NAME` and `SUCCESS_NAME`. -/
inductive Name where
  | envelope | success
  deriving DecidableEq

/-- What a call of `seal_terminal_checkpoint` is given. -/
structure Seal where
  binding : ExperimentDispatchBinding
  result : ExperimentResult

/-- The files of the checkpoint, and the last seal that has written a marker. -/
structure Metadata where
  envelope : Option Content
  success : Option Content
  published : Option Seal

namespace Metadata

def get (m : Metadata) : Name → Option Content
  | .envelope => m.envelope
  | .success => m.success

def unlink (m : Metadata) : Name → Metadata
  | .envelope => { m with envelope := none }
  | .success => { m with success := none }

theorem unlink_of_missing {m : Metadata} {name : Name} (h : m.get name = none) : m.unlink name = m := by
  obtain ⟨envelope, success, published⟩ := m
  cases name <;> cases h <;> rfl

/-- A file takes the place of the one with the name; a marker is of the seal that writes it. -/
def replace (publisher : Option Seal) (m : Metadata) (content : Content) : Name → Metadata
  | .envelope => { m with envelope := some content }
  | .success => { m with success := some content, published := publisher }

end Metadata

/-- The directory; files that are being written have temporary names. -/
structure Disk where
  metadata : Metadata
  temporary : ℕ → Option Content

def Disk.empty : Disk := ⟨⟨none, none, none⟩, fun _ => none⟩

inductive OSError where
  /-- `FileNotFoundError`. -/
  | notFound
  | failed (message : String)

inductive Action where
  | makedirs
  | isfile (name : Name)
  | islink (name : Name)
  | read (name : Name)
  | unlink (name : Name)
  | mkstemp
  /-- Dump a document into a temporary file and flush it. -/
  | write (temporary : ℕ) (payload : Wire)
  | replace (temporary : ℕ) (name : Name)
  | unlinkTemporary (temporary : ℕ)
  | syncDirectory

/-- What file operations return or raise. -/
def Action.Reply : Action → Type
  | .isfile _ | .islink _ => Bool
  | .read _ => Except OSError Content
  | .mkstemp => Except OSError ℕ
  | _ => Except OSError Unit

def interface : Interface := ⟨Action, Action.Reply⟩

/-- A file operation of a call that seals for `publisher`. All but the tests may fail; writing may
leave any content behind; nothing ever makes a link. -/
inductive Does (publisher : Option Seal) :
    Disk → (action : Action) → action.Reply → Disk → Prop where
  | makedirs {d : Disk} {r : Except OSError Unit} : Does publisher d .makedirs r d
  | isfile {d : Disk} {name : Name} : Does publisher d (.isfile name) (d.metadata.get name).isSome d
  | islink {d : Disk} {name : Name} : Does publisher d (.islink name) false d
  | read {d : Disk} {name : Name} {content : Content} (h : d.metadata.get name = some content) :
    Does publisher d (.read name) (.ok content) d
  | readFailed {d : Disk} {name : Name} {e : OSError} : Does publisher d (.read name) (.error e) d
  | unlink {d : Disk} {name : Name} (h : d.metadata.get name ≠ none) :
    Does publisher d (.unlink name) (.ok ()) { d with metadata := d.metadata.unlink name }
  | unlinkMissing {d : Disk} {name : Name} (h : d.metadata.get name = none) :
    Does publisher d (.unlink name) (.error .notFound) d
  | unlinkFailed {d : Disk} {name : Name} {message : String} :
    Does publisher d (.unlink name) (.error (.failed message)) d
  | mkstemp {d : Disk} {n : ℕ} (h : d.temporary n = none) :
    Does publisher d .mkstemp (.ok n)
      { d with temporary := Function.update d.temporary n (some (.torn "")) }
  | mkstempFailed {d : Disk} {e : OSError} : Does publisher d .mkstemp (.error e) d
  | write {d : Disk} {n : ℕ} {payload : Wire} :
    Does publisher d (.write n payload) (.ok ())
      { d with temporary := Function.update d.temporary n (some (.document payload)) }
  | writeFailed {d : Disk} {n : ℕ} {payload : Wire} {content : Content} {e : OSError} :
    Does publisher d (.write n payload) (.error e)
      { d with temporary := Function.update d.temporary n (some content) }
  | replace {d : Disk} {n : ℕ} {name : Name} {content : Content} (h : d.temporary n = some content) :
    Does publisher d (.replace n name) (.ok ())
      { metadata := d.metadata.replace publisher content name
        temporary := Function.update d.temporary n none }
  | replaceFailed {d : Disk} {n : ℕ} {name : Name} {e : OSError} :
    Does publisher d (.replace n name) (.error e) d
  | unlinkTemporary {d : Disk} {n : ℕ} (h : d.temporary n ≠ none) :
    Does publisher d (.unlinkTemporary n) (.ok ())
      { d with temporary := Function.update d.temporary n none }
  | unlinkTemporaryFailed {d : Disk} {n : ℕ} {e : OSError} :
    Does publisher d (.unlinkTemporary n) (.error e) d
  | syncDirectory {d : Disk} {r : Except OSError Unit} : Does publisher d .syncDirectory r d

/-! ### The calls -/

inductive Fault where
  | os (e : OSError)
  | decoding (e : WireError)

abbrev Storing (α : Type) := ExceptT Fault (Prog interface) α

def ask (action : Action) : Storing action.Reply := ExceptT.lift (Prog.perform (I := interface) action)

variable (name : Name)

def isfile : Storing Bool := ask (.isfile name)

def islink : Storing Bool := ask (.islink name)

def raised {α : Type} : Except OSError α → Storing α
  | .ok a => pure a
  | .error e => throw (.os e)

def decoded {α : Type} : Decoding α → Storing α
  | .ok a => pure a
  | .error e => throw (.decoding e)

/-- `if c: raise ValueError(message)`. -/
def refuseIf (c : Prop) [Decidable c] (message : String) : Storing Unit :=
  if c then throw (.decoding (.value message)) else pure ()

def makedirs : Storing Unit := do raised (← ask .makedirs)

def read : Storing Content := do raised (← ask (.read name))

/-- What `os.unlink` raises, except that a missing file is passed over. -/
def discarded : Except OSError Unit → Storing Unit
  | .error .notFound => pure ()
  | r => raised r

def unlink : Storing Unit := do discarded (← ask (.unlink name))

def parseJsonObject : Content → Storing Wire
  | .document (.obj fields) => pure (.obj fields)
  | .document _ => throw (.decoding (.value "checkpoint file is not a JSON object"))
  | .torn _ => throw (.decoding (.value "the text is not JSON"))

def atomicWriteJson (payload : Wire) : Storing Unit := do
  makedirs
  let temporary ← raised (← ask .mkstemp)
  tryCatch (do
      raised (← ask (.write temporary payload))
      raised (← ask (.replace temporary name)))
    fun fault => do
      discarded (← ask (.unlinkTemporary temporary))
      throw fault
  raised (← ask .syncDirectory)

structure TerminalCheckpoint where
  result : ExperimentResult
  envelope : ExperimentEnvelope

variable (digest : Content → String)

/-- `load_terminal_checkpoint`; the digest of a file is the SHA-256 of its bytes. -/
def loadTerminalCheckpoint (binding : ExperimentDispatchBinding) (expected : ResultType) :
    Storing (Option TerminalCheckpoint) := do
  if !(← isfile .success) then return none
  else
    refuseIf (← islink .success) "checkpoint marker must not be a symbolic link"
    let marker ← decoded
      (TerminalCheckpointMarker.fromWire (← parseJsonObject (← read .success)))
    refuseIf (marker.dispatchKey ≠ binding.dispatchKey) "checkpoint marker has a different dispatch key"
    refuseIf ((← islink .envelope) || !(← isfile .envelope)) "checkpoint envelope is unavailable"
    let content ← read .envelope
    refuseIf (digest content ≠ marker.envelopeSha256) "checkpoint envelope SHA-256 is inconsistent"
    let envelope ← decoded (ExperimentEnvelope.fromWire float (← parseJsonObject content))
    refuseIf (envelope.binding ≠ binding) "checkpoint envelope has a different binding"
    refuseIf (resultType envelope.result ≠ expected) "checkpoint envelope contains an unexpected result type"
    return some ⟨envelope.result, envelope⟩

def sealTerminalCheckpoint (binding : ExperimentDispatchBinding) (result : ExperimentResult) :
    Storing TerminalCheckpoint := do
  makedirs
  unlink .success
  let envelope ← decoded (ExperimentEnvelope.bind binding result)
  atomicWriteJson .envelope (envelope.toWire float)
  let content ← read .envelope
  let marker ← decoded (TerminalCheckpointMarker.make binding.dispatchKey (digest content))
  atomicWriteJson .success marker.toWire
  return ⟨result, envelope⟩

def resetIncompleteTerminalCheckpoint : Storing Unit := do
  makedirs
  unlink .envelope
  unlink .success

def initializeTerminalCheckpoint (binding : ExperimentDispatchBinding) (expected : ResultType) :
    Storing (Option TerminalCheckpoint) := do
  match ← loadTerminalCheckpoint float digest binding expected with
  | some completed => return some completed
  | none =>
    resetIncompleteTerminalCheckpoint
    return none

/-- What calls in a row may leave, each stopped anywhere, in a directory that was empty. -/
inductive Reachable : Disk → Prop where
  | empty : Reachable .empty
  | loading {d d' : Disk} (binding : ExperimentDispatchBinding) (expected : ResultType)
    {p : Prog interface (Except Fault (Option TerminalCheckpoint))} (h : Reachable d)
    (hrun : Relation.ReflTransGen (Prog.Alone (I := interface) (Does none))
      (d, (loadTerminalCheckpoint float digest binding expected).run) (d', p)) : Reachable d'
  | initializing {d d' : Disk} (binding : ExperimentDispatchBinding) (expected : ResultType)
    {p : Prog interface (Except Fault (Option TerminalCheckpoint))} (h : Reachable d)
    (hrun : Relation.ReflTransGen (Prog.Alone (I := interface) (Does none))
      (d, (initializeTerminalCheckpoint float digest binding expected).run) (d', p)) : Reachable d'
  | sealing {d d' : Disk} (binding : ExperimentDispatchBinding) (result : ExperimentResult)
    (hresult : result.Constructed float)
    {p : Prog interface (Except Fault TerminalCheckpoint)} (h : Reachable d)
    (hrun : Relation.ReflTransGen (Prog.Alone (I := interface) (Does (some ⟨binding, result⟩)))
      (d, (sealTerminalCheckpoint float digest binding result).run) (d', p)) : Reachable d'

/-! ### Reading back -/

section Codec

variable {float : ℚ → ℚ}

@[simp] theorem experimentId_current (r : ExperimentResult) : r.current.experimentId = r.experimentId := by
  cases r <;> rfl

theorem ExperimentDispatchBinding.make_self (b : ExperimentDispatchBinding) :
    make b.sessionId b.experimentId (.int b.analyzedStateRevision) b.dispatchKey = .ok b := by
  rw [make, dif_pos b.session_ne, dif_pos b.experiment_ne]
  dsimp only
  rw [dif_pos b.revision_nonneg, dif_pos b.key_eq]

/-- An envelope as it is read back. -/
def ExperimentEnvelope.current (e : ExperimentEnvelope) : ExperimentEnvelope :=
  ⟨e.binding, e.result.current, (experimentId_current e.result).trans e.matched⟩

theorem ExperimentEnvelope.fromWire_toWire {e : ExperimentEnvelope} (h : e.result.Constructed float) :
    fromWire float (e.toWire float) = .ok e.current := by
  simp [fromWire, toWire, ExperimentResult.fromWire_toWire h, ExperimentDispatchBinding.make_self,
    bind, e.matched, current]

theorem TerminalCheckpointMarker.fromWire_toWire (m : TerminalCheckpointMarker) :
    fromWire m.toWire = .ok m := by
  have hmake : make m.dispatchKey m.envelopeSha256 = .ok m := by
    rw [make, dif_pos m.key_ne, dif_pos m.sha]
  simp [fromWire, toWire, hmake]

end Codec

/-! ### What calls keep -/

/-- Whatever a call by itself does keeps what holds of the files. -/
abbrev keeping (J : Metadata → Prop) : Prog.Rely Disk :=
  .alone (fun d => J d.metadata) (fun _ _ => True) (fun _ => trivial) fun _ _ _ _ _ => trivial

section Rules

variable {α β : Type} {publisher : Option Seal} {J : Metadata → Prop} {d : Disk}

/-- A call that keeps `J` and, if it returns, ends with `Q`. -/
abbrev Keeps (publisher : Option Seal) (J : Metadata → Prop) (Q : α → Disk → Prop) (p : Storing α)
    (d : Disk) : Prop := Prog.Ensures (I := interface) (keeping J) (Does publisher) Q p d

variable {Q : α → Disk → Prop}

theorem keeps_ask {action : Action} {Q : action.Reply → Disk → Prop}
    (h : ∀ r d', Does publisher d action r d' → J d'.metadata ∧ Q r d') :
    Keeps publisher J Q (ask action) d := by
  refine Prog.ensures_lift ?_
  rintro _ rfl - r d' hdoes
  obtain ⟨hJ, hQ⟩ := h r d' hdoes
  refine ⟨hJ, trivial, ?_⟩
  rintro _ rfl -
  exact hQ

theorem keeps_raised {x : Except OSError α} (h : ∀ a, x = .ok a → Q a d) : Keeps publisher J Q (raised x) d := by
  cases x with
  | ok a => exact Prog.ensures_pure_alone (h a rfl)
  | error e => exact Prog.ensures_throw

theorem keeps_decoded {x : Decoding α} (h : ∀ a, x = .ok a → Q a d) : Keeps publisher J Q (decoded x) d := by
  cases x with
  | ok a => exact Prog.ensures_pure_alone (h a rfl)
  | error e => exact Prog.ensures_throw

theorem keeps_discarded {x : Except OSError Unit} {Q : Unit → Disk → Prop}
    (h : x = .ok () ∨ x = .error .notFound → Q () d) : Keeps publisher J Q (discarded x) d := by
  cases x with
  | ok a => exact Prog.ensures_pure_alone (h (.inl rfl))
  | error e =>
    cases e with
    | notFound => exact Prog.ensures_pure_alone (h (.inr rfl))
    | failed message => exact Prog.ensures_throw

theorem keeps_refuseIf {c : Prop} [Decidable c] {message : String} {Q : Unit → Disk → Prop}
    (h : ¬c → Q () d) : Keeps publisher J Q (refuseIf c message) d := by
  unfold refuseIf
  split_ifs with hc
  · exact Prog.ensures_throw
  · exact Prog.ensures_pure_alone (h hc)

theorem keeps_parse {content : Content} {Q : Wire → Disk → Prop}
    (h : ∀ w, content = .document w → Q w d) : Keeps publisher J Q (parseJsonObject content) d := by
  cases content with
  | torn text => exact Prog.ensures_throw
  | document w =>
    cases w with
    | obj fields => exact Prog.ensures_pure_alone (h _ rfl)
    | _ => exact Prog.ensures_throw

/-- A file operation that raises or not. -/
theorem keeps_raised_ask {action : Action} {f : action.Reply → Except OSError α}
    (h : ∀ r d', Does publisher d action r d' → J d'.metadata ∧ ∀ a, f r = .ok a → Q a d') :
    Keeps publisher J Q (do raised (f (← ask action))) d :=
  Prog.ensures_bind (keeps_ask fun r d' hdoes => ⟨(h r d' hdoes).1, keeps_raised (h r d' hdoes).2⟩)

end Rules

section Calls

variable {float} {digest} {m : Metadata} {d : Disk} {binding : ExperimentDispatchBinding}
  {expected : ResultType}

/-- What is loaded is read from the envelope beside a marker. -/
structure Loaded (float : ℚ → ℚ) (m : Metadata) (binding : ExperimentDispatchBinding)
    (c : TerminalCheckpoint) : Prop where
  marked : m.success ≠ none
  read : ∃ w, m.envelope = some (.document w) ∧ ExperimentEnvelope.fromWire float w = .ok c.envelope
  bound : c.envelope.binding = binding
  result : c.result = c.envelope.result

/-- A test of a name, or reading it, changes nothing. -/
theorem keeps_isfile {name : Name} {J : Metadata → Prop} {Q : Bool → Disk → Prop} (hJ : J d.metadata)
    (h : Q (d.metadata.get name).isSome d) : Keeps none J Q (isfile name) d := by
  refine keeps_ask fun r d' hdoes => ?_
  cases hdoes
  exact ⟨hJ, h⟩

theorem keeps_islink {name : Name} {J : Metadata → Prop} {Q : Bool → Disk → Prop} (hJ : J d.metadata)
    (h : Q false d) : Keeps none J Q (islink name) d := by
  refine keeps_ask fun r d' hdoes => ?_
  cases hdoes
  exact ⟨hJ, h⟩

theorem keeps_read {publisher : Option Seal} {name : Name} {J : Metadata → Prop}
    {Q : Content → Disk → Prop} (hJ : J d.metadata)
    (h : ∀ content, d.metadata.get name = some content → Q content d) : Keeps publisher J Q (read name) d := by
  refine keeps_raised_ask fun r d' hdoes => ?_
  cases hdoes with
  | read hcontent => exact ⟨hJ, fun content hr => h content (Except.ok.inj hr ▸ hcontent)⟩
  | readFailed => exact ⟨hJ, fun content hr => (nomatch hr)⟩

/-- Loading changes nothing; it returns nothing only where there is no marker. -/
theorem keeps_load {J : Metadata → Prop} (hJ : J d.metadata) : Keeps none J
    (fun o d' => d' = d ∧ (o = none → d.metadata.success = none) ∧
      ∀ c, o = some c → Loaded float d.metadata binding c)
    (loadTerminalCheckpoint float digest binding expected) d := by
  unfold loadTerminalCheckpoint
  refine Prog.ensures_bind (keeps_isfile hJ ?_)
  split_ifs with hmarked
  · refine Prog.ensures_pure_alone ⟨rfl, fun _ => ?_, fun c hc => (nomatch hc)⟩
    simpa [Metadata.get] using hmarked
  · refine Prog.ensures_bind (keeps_islink hJ ?_)
    refine Prog.ensures_bind (keeps_refuseIf fun _ => ?_)
    refine Prog.ensures_bind (keeps_read hJ fun marking _ => ?_)
    refine Prog.ensures_bind (keeps_parse fun w _ => ?_)
    refine Prog.ensures_bind (keeps_decoded fun marker _ => ?_)
    refine Prog.ensures_bind (keeps_refuseIf fun _ => ?_)
    refine Prog.ensures_bind (keeps_islink hJ ?_)
    refine Prog.ensures_bind (keeps_isfile hJ ?_)
    refine Prog.ensures_bind (keeps_refuseIf fun _ => ?_)
    refine Prog.ensures_bind (keeps_read hJ fun content hcontent => ?_)
    refine Prog.ensures_bind (keeps_refuseIf fun _ => ?_)
    refine Prog.ensures_bind (keeps_parse fun w hw => ?_)
    refine Prog.ensures_bind (keeps_decoded fun envelope henvelope => ?_)
    refine Prog.ensures_bind (keeps_refuseIf fun hbinding => ?_)
    refine Prog.ensures_bind (keeps_refuseIf fun _ => ?_)
    refine Prog.ensures_pure_alone ⟨rfl, fun hnone => (nomatch hnone), ?_⟩
    rintro _ ⟨⟩
    refine ⟨fun hnone => hmarked (by simp [Metadata.get, hnone]), ⟨w, ?_, henvelope⟩,
      not_not.mp hbinding, rfl⟩
    rw [← hw]
    exact hcontent

/-! ### Commits -/

/-- The files are the envelope of a seal and the marker that was written for it. -/
def Committed (float : ℚ → ℚ) (digest : Content → String) (m : Metadata) (s : Seal) : Prop :=
  ∃ envelope marker, ExperimentEnvelope.bind s.binding s.result = .ok envelope ∧
    TerminalCheckpointMarker.make s.binding.dispatchKey (digest (.document (envelope.toWire float))) =
      .ok marker ∧
    m.envelope = some (.document (envelope.toWire float)) ∧ m.success = some (.document marker.toWire)

/-- A marker is there only beside the envelope of the last seal that wrote one. -/
def Consistent (float : ℚ → ℚ) (digest : Content → String) (m : Metadata) : Prop :=
  m.success ≠ none → ∃ s, m.published = some s ∧ s.result.Constructed float ∧ Committed float digest m s

theorem ExperimentEnvelope.bind_ok {b : ExperimentDispatchBinding} {r : ExperimentResult}
    {e : ExperimentEnvelope} (h : bind b r = .ok e) : e.binding = b ∧ e.result = r := by
  unfold bind at h
  split_ifs at h
  rw [← Except.ok.inj h]
  exact ⟨rfl, rfl⟩

/-- What is loaded is the result of the last seal that wrote a marker, and was sealed for the binding. -/
theorem Loaded.published {c : TerminalCheckpoint} (h : Loaded float m binding c)
    (hm : Consistent float digest m) : ∃ r, m.published = some ⟨binding, r⟩ ∧ c.result = r.current := by
  obtain ⟨s, hs, hconstructed, envelope, -, hbind, -, henvelope, -⟩ := hm h.marked
  obtain ⟨w, hw, hread⟩ := h.read
  obtain ⟨hbinding, hresult⟩ := ExperimentEnvelope.bind_ok hbind
  have hdocument : Content.document w = .document (envelope.toWire float) :=
    Option.some.inj (hw.symm.trans henvelope)
  obtain rfl : w = envelope.toWire float := Content.document.inj hdocument
  rw [ExperimentEnvelope.fromWire_toWire (hresult ▸ hconstructed)] at hread
  have hcurrent := Except.ok.inj hread
  refine ⟨s.result, ?_, ?_⟩
  · have hbound : s.binding = binding := hbinding.symm.trans ((congrArg _ hcurrent).trans h.bound)
    rw [hs, ← hbound]
  · rw [h.result, ← hcurrent, ← hresult]
    rfl

/-! ### Writing -/

section Writing

variable {publisher : Option Seal} {J : Metadata → Prop}

theorem keeps_makedirs {Q : Unit → Disk → Prop} (hJ : J d.metadata) (h : Q () d) :
    Keeps publisher J Q makedirs d := by
  refine keeps_raised_ask fun r d' hdoes => ?_
  cases hdoes
  exact ⟨hJ, fun _ _ => h⟩

/-- After an unlink that raised nothing, or no file was found, there is no file of the name. -/
theorem keeps_unlink {name : Name} {Q : Unit → Disk → Prop} (hJ : J d.metadata)
    (hunlink : J (d.metadata.unlink name))
    (h : ∀ d' : Disk, d'.metadata = d.metadata.unlink name → Q () d') :
    Keeps publisher J Q (unlink name) d := by
  refine Prog.ensures_bind (keeps_ask fun r d' hdoes => ?_)
  cases hdoes with
  | unlink hsome => exact ⟨hunlink, keeps_discarded fun _ => h _ rfl⟩
  | unlinkMissing hnone => exact ⟨hJ, keeps_discarded fun _ => h d (Metadata.unlink_of_missing hnone).symm⟩
  | unlinkFailed => exact ⟨hJ, keeps_discarded fun hr => by rcases hr with hr | hr <;> cases hr⟩

theorem keeps_mkstemp {Q : Except OSError ℕ → Disk → Prop} (hJ : J d.metadata)
    (h : ∀ r d' : _, Disk.metadata d' = d.metadata → Q r d') : Keeps publisher J Q (ask .mkstemp) d := by
  refine keeps_ask fun r d' hdoes => ?_
  cases hdoes <;> exact ⟨hJ, h _ _ rfl⟩

/-- A document takes the place of a file at once, or the files stay as they are. -/
theorem keeps_atomicWriteJson {name : Name} {payload : Wire} {Q : Unit → Disk → Prop} (hJ : J d.metadata)
    (hreplace : J (d.metadata.replace publisher (.document payload) name))
    (h : ∀ d' : Disk, d'.metadata = d.metadata.replace publisher (.document payload) name → Q () d') :
    Keeps publisher J Q (atomicWriteJson name payload) d := by
  unfold atomicWriteJson
  refine Prog.ensures_bind (keeps_makedirs hJ ?_)
  refine Prog.ensures_bind (keeps_mkstemp hJ fun r d₁ hd₁ => ?_)
  refine Prog.ensures_bind (keeps_raised fun n _ => ?_)
  refine Prog.ensures_bind (Prog.ensures_tryCatch ?_ fun fault d₂ _ hJ₂ => ?_)
  · refine Prog.ensures_bind (keeps_ask fun r d₂ hdoes => ⟨?_, ?_⟩)
    · cases hdoes <;> rwa [hd₁]
    refine Prog.ensures_bind (keeps_raised fun _ hr => ?_)
    obtain rfl := hr
    cases hdoes
    refine keeps_raised_ask fun r d₃ hdoes => ?_
    cases hdoes with
    | replaceFailed => exact ⟨hd₁ ▸ hJ, fun _ hr => (nomatch hr)⟩
    | replace hcontent =>
      rename_i content
      obtain rfl : Content.document payload = content := by simpa using hcontent
      rw [hd₁]
      refine ⟨hreplace, fun _ _ => ?_⟩
      refine keeps_raised_ask fun r d₄ hdoes => ?_
      cases hdoes
      exact ⟨hreplace, fun _ _ => h _ rfl⟩
  · refine Prog.ensures_bind (keeps_ask fun r d₃ hdoes => ⟨?_, ?_⟩)
    · cases hdoes <;> exact hJ₂
    · exact Prog.ensures_bind (keeps_discarded fun _ => Prog.ensures_throw)

end Writing

/-- Sealing removes the marker first and writes it last. -/
theorem keeps_seal {result : ExperimentResult} (hd : Consistent float digest d.metadata)
    (hresult : result.Constructed float) :
    Keeps (some ⟨binding, result⟩) (Consistent float digest) (fun _ _ => True)
      (sealTerminalCheckpoint float digest binding result) d := by
  unfold sealTerminalCheckpoint
  refine Prog.ensures_bind (keeps_makedirs hd ?_)
  have hunmarked : Consistent float digest (d.metadata.unlink .success) := fun hmarked => absurd rfl hmarked
  refine Prog.ensures_bind (keeps_unlink hd hunmarked fun d₁ hd₁ => ?_)
  refine Prog.ensures_bind (keeps_decoded fun envelope henvelope => ?_)
  refine Prog.ensures_bind (keeps_atomicWriteJson (hd₁ ▸ hunmarked)
    (fun hmarked => absurd (hd₁ ▸ rfl) hmarked) fun d₂ hd₂ => ?_)
  have hunmarked₂ : Consistent float digest d₂.metadata := fun hmarked => absurd (hd₂ ▸ hd₁ ▸ rfl) hmarked
  refine Prog.ensures_bind (keeps_read hunmarked₂ fun content hcontent => ?_)
  obtain rfl : Content.document (envelope.toWire float) = content := by
    rw [hd₂] at hcontent
    exact Option.some.inj hcontent
  refine Prog.ensures_bind (keeps_decoded fun marker hmarker => ?_)
  have hcommitted : Consistent float digest
      (d₂.metadata.replace (some ⟨binding, result⟩) (.document marker.toWire) .success) :=
    fun _ => ⟨⟨binding, result⟩, rfl, hresult, envelope, marker, henvelope, hmarker, hd₂ ▸ rfl, rfl⟩
  refine Prog.ensures_bind (keeps_atomicWriteJson hunmarked₂ hcommitted fun d₃ _ => ?_)
  exact Prog.ensures_pure_alone trivial

/-- Initializing leaves the files of a marker as they are. -/
theorem keeps_initialize_marked (hmarked : d.metadata.success ≠ none) :
    Keeps none (· = d.metadata) (fun _ _ => True)
      (initializeTerminalCheckpoint float digest binding expected) d := by
  unfold initializeTerminalCheckpoint
  refine Prog.ensures_bind (Prog.Ensures.weaken (keeps_load rfl) fun o d' _ _ hload => ?_)
  cases o with
  | some c => exact Prog.ensures_pure_alone trivial
  | none => exact absurd (hload.2.1 rfl) hmarked

/-- Where there is no marker, initializing makes none. -/
theorem keeps_initialize_unmarked (hunmarked : d.metadata.success = none) :
    Keeps none (·.success = none) (fun _ _ => True)
      (initializeTerminalCheckpoint float digest binding expected) d := by
  unfold initializeTerminalCheckpoint
  refine Prog.ensures_bind (Prog.Ensures.weaken (keeps_load hunmarked) fun o d' _ hunmarked' _ => ?_)
  cases o with
  | some c => exact Prog.ensures_pure_alone trivial
  | none =>
    refine Prog.ensures_bind (Prog.ensures_bind (keeps_makedirs hunmarked' ?_))
    refine Prog.ensures_bind (keeps_unlink hunmarked' hunmarked' fun d₁ hd₁ => ?_)
    have hunmarked₁ : d₁.metadata.success = none := hd₁ ▸ hunmarked'
    refine keeps_unlink hunmarked₁ rfl fun d₂ _ => ?_
    exact Prog.ensures_pure_alone trivial

/-- Whatever calls did, and wherever they stopped. -/
theorem Reachable.consistent (h : Reachable float digest d) : Consistent float digest d.metadata := by
  induction h with
  | empty => exact fun hmarked => absurd rfl hmarked
  | loading binding expected _ hrun ih => exact (Prog.holds_alone ih (keeps_load ih) hrun).1
  | @initializing d₁ _ binding expected _ _ hrun ih =>
    by_cases hmarked : d₁.metadata.success = none
    · have hunmarked := (Prog.holds_alone hmarked (keeps_initialize_unmarked hmarked) hrun).1
      exact fun hmarked' => absurd hunmarked hmarked'
    · have hsame := (Prog.holds_alone rfl (keeps_initialize_marked hmarked) hrun).1
      rw [hsame]
      exact ih
  | sealing binding result hresult _ hrun ih => exact (Prog.holds_alone ih (keeps_seal ih hresult) hrun).1

/-! ### Sealing and loading undisturbed -/

section Undisturbed

variable {publisher : Option Seal}

theorem ends_makedirs : Prog.Ends (Does publisher) d makedirs () d :=
  Prog.ends_bind (Prog.ends_lift (I := interface) (.makedirs (r := .ok ()))) Prog.ends_pure

theorem ends_isfile {name : Name} :
    Prog.Ends (Does publisher) d (isfile name) (d.metadata.get name).isSome d :=
  Prog.ends_lift (I := interface) .isfile

theorem ends_islink {name : Name} : Prog.Ends (Does publisher) d (islink name) false d :=
  Prog.ends_lift (I := interface) .islink

theorem ends_read {name : Name} {content : Content} (h : d.metadata.get name = some content) :
    Prog.Ends (Does publisher) d (read name) content d :=
  Prog.ends_bind (Prog.ends_lift (I := interface) (.read h)) Prog.ends_pure

theorem ends_unlink {name : Name} : Prog.Ends (Does publisher) d (unlink name) ()
    { d with metadata := d.metadata.unlink name } := by
  by_cases hmissing : d.metadata.get name = none
  · rw [Metadata.unlink_of_missing hmissing]
    exact Prog.ends_bind (Prog.ends_lift (I := interface) (.unlinkMissing hmissing)) Prog.ends_pure
  · exact Prog.ends_bind (Prog.ends_lift (I := interface) (.unlink hmissing)) Prog.ends_pure

theorem ends_atomicWriteJson {name : Name} {payload : Wire} {n : ℕ} (hn : d.temporary n = none) :
    Prog.Ends (Does publisher) d (atomicWriteJson name payload) ()
      { d with metadata := d.metadata.replace publisher (.document payload) name } := by
  have hwritten : Function.update (Function.update d.temporary n (some (.torn ""))) n
      (some (.document payload)) n = some (.document payload) := Function.update_self _ _ _
  have hrestored : Function.update (Function.update (Function.update d.temporary n (some (.torn ""))) n
      (some (.document payload))) n none = d.temporary := by
    rw [Function.update_idem, Function.update_idem, ← hn, Function.update_eq_self]
  unfold atomicWriteJson
  refine Prog.ends_bind ends_makedirs ?_
  refine Prog.ends_bind (Prog.ends_lift (I := interface) (.mkstemp hn)) ?_
  refine Prog.ends_bind Prog.ends_pure ?_
  have hsynced : Prog.Ends (Does publisher)
      { d with metadata := d.metadata.replace publisher (.document payload) name }
      (do raised (← ask .syncDirectory)) ()
      { d with metadata := d.metadata.replace publisher (.document payload) name } :=
    Prog.ends_bind (Prog.ends_lift (I := interface) (.syncDirectory (r := .ok ()))) Prog.ends_pure
  refine Prog.ends_bind (a := ()) (Prog.ends_tryCatch ?_) hsynced
  refine Prog.ends_bind (Prog.ends_lift (I := interface) .write) ?_
  refine Prog.ends_bind Prog.ends_pure ?_
  refine Prog.ends_bind (Prog.ends_lift (I := interface) (.replace hwritten)) ?_
  rw [hrestored]
  exact Prog.ends_pure

theorem ends_parse {w : Wire} (h : ∃ fields, w = .obj fields) :
    Prog.Ends (I := interface) (Does publisher) d (parseJsonObject (.document w)) w d := by
  obtain ⟨fields, rfl⟩ := h
  exact Prog.ends_pure

theorem ends_refuseIf {c : Prop} [Decidable c] {message : String} (h : ¬c) :
    Prog.Ends (I := interface) (Does publisher) d (refuseIf c message) () d := by
  rw [refuseIf, if_neg h]
  exact Prog.ends_pure

theorem resultType_current (r : ExperimentResult) : resultType r.current = resultType r := by
  cases r <;> rfl

theorem blank_dispatchKey (binding : ExperimentDispatchBinding) : blank binding.dispatchKey = false := by
  rw [binding.key_eq, experimentDispatchKey, blank, String.toList_append]
  rfl

/-- A seal that nothing disturbs commits its result, and a load then returns it. -/
theorem ends_seal_load {result : ExperimentResult} {n : ℕ} (hn : d.temporary n = none)
    (hdigest : ∀ content, isSha256 (digest content)) (hresult : result.Constructed float)
    (hmatched : result.experimentId = binding.experimentId) :
    ∃ d' c c', Prog.Ends (I := interface) (Does (some ⟨binding, result⟩)) d
        (sealTerminalCheckpoint float digest binding result) c d' ∧
      d'.metadata.published = some ⟨binding, result⟩ ∧
      Prog.Ends (I := interface) (Does none) d'
        (loadTerminalCheckpoint float digest binding (resultType result)) (some c') d' ∧
      c'.result = result.current := by
  let envelope : ExperimentEnvelope := ⟨binding, result, hmatched⟩
  let marker : TerminalCheckpointMarker :=
    ⟨binding.dispatchKey, digest (.document (envelope.toWire float)), blank_dispatchKey binding, hdigest _⟩
  have hbind : ExperimentEnvelope.bind binding result = .ok envelope := dif_pos hmatched
  have hmake : TerminalCheckpointMarker.make binding.dispatchKey
      (digest (.document (envelope.toWire float))) = .ok marker := by
    rw [TerminalCheckpointMarker.make, dif_pos (blank_dispatchKey binding), dif_pos (hdigest _)]
  refine ⟨⟨⟨some (.document (envelope.toWire float)), some (.document marker.toWire),
    some ⟨binding, result⟩⟩, d.temporary⟩, ⟨result, envelope⟩, ⟨result.current, envelope.current⟩, ?_, rfl, ?_, rfl⟩
  · unfold sealTerminalCheckpoint
    refine Prog.ends_bind ends_makedirs ?_
    refine Prog.ends_bind ends_unlink ?_
    rw [hbind]
    refine Prog.ends_bind Prog.ends_pure ?_
    refine Prog.ends_bind (ends_atomicWriteJson hn) ?_
    refine Prog.ends_bind (ends_read rfl) ?_
    rw [hmake]
    refine Prog.ends_bind Prog.ends_pure ?_
    exact Prog.ends_bind (ends_atomicWriteJson hn) Prog.ends_pure
  · unfold loadTerminalCheckpoint
    refine Prog.ends_bind ends_isfile ?_
    rw [if_neg (by simp [Metadata.get])]
    refine Prog.ends_bind ends_islink ?_
    refine Prog.ends_bind (ends_refuseIf (by simp)) ?_
    refine Prog.ends_bind (ends_read rfl) ?_
    refine Prog.ends_bind (ends_parse ⟨_, rfl⟩) ?_
    rw [TerminalCheckpointMarker.fromWire_toWire]
    refine Prog.ends_bind Prog.ends_pure ?_
    refine Prog.ends_bind (ends_refuseIf (not_not.mpr rfl)) ?_
    refine Prog.ends_bind ends_islink ?_
    refine Prog.ends_bind ends_isfile ?_
    refine Prog.ends_bind (ends_refuseIf (by simp [Metadata.get])) ?_
    refine Prog.ends_bind (ends_read rfl) ?_
    refine Prog.ends_bind (ends_refuseIf (not_not.mpr rfl)) ?_
    refine Prog.ends_bind (ends_parse ⟨_, rfl⟩) ?_
    rw [ExperimentEnvelope.fromWire_toWire hresult]
    refine Prog.ends_bind Prog.ends_pure ?_
    refine Prog.ends_bind (ends_refuseIf (not_not.mpr rfl)) ?_
    refine Prog.ends_bind (ends_refuseIf (not_not.mpr (resultType_current result))) ?_
    exact Prog.ends_pure

end Undisturbed

end Calls

/-! ### An outcome that is written no longer -/

def someBinding : ExperimentDispatchBinding :=
  ⟨"session", "reduce-1", 0, experimentDispatchKey "session" "reduce-1" 0, by decide, by decide, by decide, rfl⟩

def replayFailed : ReduceExperimentResult where
  experimentId := "reduce-1"
  executionStatus := .failed
  outcome := .replayFailed
  provenance := ⟨"", "", none, "", ""⟩
  inputConfig :=
    { artifact := ⟨"file:///config.json", "config.json", none, none, "application/json"⟩
      workUnitId := "unit"
      targetArgv := []
      oracle := ⟨"oracle", ["./check"], [1]⟩
      sourceRevision := ""
      arch := ""
      kernel := none
      delayNs := 1000
      enableProb := 1
      warpgroupId := none
      attemptIndex := 0
      completedTrials := 0
      reproductions := 0
      reproductionRate := 0
      enabledPointCount := none
      cutracerVersion := ""
      toolchainVersion := "" }
  minimizedConfig := none
  report := none
  essentialPointsArtifact := none
  essentialPoints := []
  durationS := 0
  error := none
  note := ""

theorem constructed_replayFailed : (ExperimentResult.reduction replayFailed).Constructed id := by
  refine ⟨by decide, ?_⟩
  simp [TriggeringDelayConfig.postInit, replayFailed, derivedReproductionRate]

theorem sealed_replayFailed {digest : Content → String} (hsha : ∀ content, isSha256 (digest content)) :
    ∃ d c, Reachable id digest d ∧ d.metadata.published = some ⟨someBinding, .reduction replayFailed⟩ ∧
      Prog.Ends (I := interface) (Does none) d (loadTerminalCheckpoint id digest someBinding .reduction)
        (some c) d ∧ c.result = .reduction { replayFailed with outcome := .nonReproducible } := by
  obtain ⟨d, c, c', hseal, hpublished, hload, hresult⟩ := @ends_seal_load id digest .empty someBinding
    (.reduction replayFailed) 0 rfl hsha constructed_replayFailed rfl
  exact ⟨d, c', .sealing _ _ constructed_replayFailed .empty hseal, hpublished, hload, hresult⟩

/-- A call of `load_terminal_checkpoint`, after any calls that were each stopped anywhere, changes
nothing, and what it returns is the result, as it is read back, of the last seal that has written a
marker, which was a seal for the same binding. Initializing leaves a committed checkpoint as it is. -/
theorem terminal_checkpoint_commits {float : ℚ → ℚ} {digest : Content → String} {d : Disk}
    (h : Reachable float digest d) (binding : ExperimentDispatchBinding) (expected : ResultType) :
    (∀ c d', Prog.Ends (I := interface) (Does none) d (loadTerminalCheckpoint float digest binding expected)
        (some c) d' →
      d' = d ∧ ∃ r, d.metadata.published = some ⟨binding, r⟩ ∧ c.result = r.current) ∧
    (d.metadata.success ≠ none → ∀ d' p, Relation.ReflTransGen (Prog.Alone (I := interface) (Does none))
        (d, (initializeTerminalCheckpoint float digest binding expected).run) (d', p) →
      d'.metadata = d.metadata) := by
  constructor
  · intro c d' hrun
    obtain ⟨hinv, hdone⟩ := Prog.holds_alone trivial (keeps_load (J := fun _ => True) trivial) hrun
    obtain ⟨hsame, -, hloaded⟩ := hdone.done_iff hinv _ rfl
    exact ⟨hsame, (hloaded c rfl).published h.consistent⟩
  · intro hmarked d' p hrun
    exact (Prog.holds_alone rfl (keeps_initialize_marked hmarked) hrun).1

/-- Whatever the digest, a result is sealed and loaded. -/
theorem terminal_checkpoint_commits_sealed : ¬ ∃ digest : Content → String, (∀ content, isSha256 (digest content)) ∧
    ∀ d c, Reachable id digest d →
      Prog.Ends (I := interface) (Does none) d (loadTerminalCheckpoint id digest someBinding .reduction) (some c) d →
      ¬ ∃ r, d.metadata.published = some ⟨someBinding, r⟩ ∧ c.result = r.current := by
  rintro ⟨digest, hsha, hnone⟩
  obtain ⟨d, c, hreach, -, hload, -⟩ := sealed_replayFailed hsha
  exact hnone d c hreach hload ((terminal_checkpoint_commits hreach someBinding .reduction).1 c d hload).2

/-- Under no digest is all that is loaded what was sealed last. -/
theorem legacy_outcome_renamed : ¬ ∃ digest : Content → String, (∀ content, isSha256 (digest content)) ∧
    ∀ d c r, Reachable id digest d → d.metadata.published = some ⟨someBinding, r⟩ →
      Prog.Ends (I := interface) (Does none) d (loadTerminalCheckpoint id digest someBinding .reduction) (some c) d →
      c.result = r := by
  rintro ⟨digest, hsha, hsame⟩
  obtain ⟨d, c, hreach, hpublished, hload, hresult⟩ := sealed_replayFailed hsha
  have heq := hresult.symm.trans (hsame d c _ hreach hpublished hload)
  revert heq
  decide

end CuTracer.Service.Checkpoint
