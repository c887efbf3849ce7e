import CuTracer.Capture.Message
import CuTracer.Capture.Queue

/-! The receiver of a context's channel. It parses every chunk to its end or to the first
bytes that are no message, hands each message to the writer of its launch, and finishes
captures between chunks; other threads create writers, ask for completions and report
failures of the channel at any time. What cannot be handed over is reported to the writer
of the launch, or to all of them and those to come where no launch is known. -/

namespace CuTracer.Capture.Receiver

open Writer (Byte Call Completion Line TraceWriter WriteResult records)
open Queue (CaptureCompletionQueue CaptureCompletionRequest)

/-! ### Plans -/

/-- What `consume` refuses a packet for. -/
inductive Refusal where
  | disabled
  | identity
  | masksOrBinding
  | sequence
  | predicateWord
  | jsonBudget

def Refusal.text : Refusal → String
  | .disabled => "plan_disabled_after_error"
  | .identity => "plan_packet_identity"
  | .masksOrBinding => "plan_packet_masks_or_binding"
  | .sequence => "plan_record_sequence"
  | .predicateWord => "predicate_word_out_of_range"
  | .jsonBudget => "plan_json_budget"

/-- How the plan consumes a packet; it throws also where no plan is loaded. -/
inductive Consumed where
  | refused (refusal : Refusal)
  | recorded (text : List Byte) (io : List WriteResult)
  | threw (what : String)

/-- How the plan finishes a trace; its sink may throw after the metadata was written. -/
inductive FinishedTrace where
  | missing
  | described (complete : Bool) (text : List Byte) (sink : Option String)
  | threw (what : String)

def planCompletionError (what : String) : Call :=
  .markCaptureError ("plan_completion_error: " ++ what) false

def FinishedTrace.calls : FinishedTrace → List Call
  | .missing => [.markCaptureError "missing_plan_launch_completion" false]
  | .described complete text sink =>
    (if complete then [] else [.markCaptureError "plan_capture_incomplete" false]) ++
      [.writeMetadata text] ++ sink.toList.map planCompletionError
  | .threw what => [planCompletionError what]

/-! ### The receiver and its writers -/

/-- The writer of a launch and its trace index, which are published together; behind them,
how much was logged before and the messages that the writer received. -/
structure LaunchTrace where
  writer : TraceWriter
  traceIndex : ℕ := 0
  openedAt : ℕ
  received : List Message := []

/-- What was parsed: a message, or bytes at whose start no message stands. -/
inductive Item where
  | message (m : Message)
  | malformed (remaining : List Byte)

/-- An item and the record that was made of it, if one was. -/
structure Entry where
  item : Item
  text : Option (List Byte)

structure ParsedChunk where
  bytes : List Byte
  messages : List Message
  rest : List Byte

def ParsedChunk.items (p : ParsedChunk) : List Item :=
  p.messages.map .message ++ if p.rest = [] then [] else [.malformed p.rest]

/-- A capture whose writer was finished, and how much was logged by then. -/
structure Closed where
  launchId : ℕ
  capture : LaunchTrace
  closedAt : ℕ

inductive Phase where
  | boundary
  | finishing (ready : List CaptureCompletionRequest) (stopping : Bool)
  | receiving
  | parsing (chunk : List Byte) (processed : ℕ) (messages : List Message)
  | between
  | ending

def Phase.messages : Phase → List Message
  | .parsing _ _ messages => messages
  | _ => []

/-- The context; at the end whether a read went past the end of a chunk, whether a write
hangs, and what happened so far. -/
structure State where
  queue : CaptureCompletionQueue := {}
  channelFailed : Bool := false
  captures : ℕ → Option LaunchTrace := fun _ => none
  phase : Phase := .boundary
  overread : Bool := false
  hung : Bool := false
  log : List Entry := []
  parsed : List ParsedChunk := []
  closed : List Closed := []

/-- The bytes of the chunk that are still to be parsed. -/
def State.left (s : State) : ℕ :=
  match s.phase with
  | .parsing chunk processed _ => chunk.length - processed
  | _ => 0

/-- What the host adds to a message: whether its instruction is known, and the record at an
index, `none` where it does not serialize. -/
structure Handling where
  identified : Bool
  serialize : ℕ → Option (List Byte)
  io : List WriteResult
  consumed : Consumed

section

variable (dump : Completion → List Byte)

def LaunchTrace.call (c : LaunchTrace) (call : Call) : LaunchTrace :=
  { c with writer := Writer.step dump c.writer call }

def LaunchTrace.calls (c : LaunchTrace) (calls : List Call) : LaunchTrace :=
  { c with writer := Writer.run dump c.writer calls }

namespace State

def setCapture (launchId : ℕ) (c : LaunchTrace) (s : State) : State :=
  { s with
    captures := Function.update s.captures launchId (some c)
    hung := s.hung || c.writer.stuck }

def markChannelFailure (reason : String) (s : State) : State :=
  { s with
    channelFailed := true
    captures := fun launchId =>
      (s.captures launchId).map fun c => c.call dump (.markCaptureError reason false) }

def writeTrace (m : Message) (handling : Handling) (c : LaunchTrace) (s : State) :
    State × Option (List Byte) :=
  let text := handling.serialize c.traceIndex
  (s.setCapture m.launchId ({ c with traceIndex := c.traceIndex + 1 }.call dump
    (.writeTrace text handling.identified handling.io)), text)

/-- A message goes to the writer of its launch; `none` where a read goes past its end. -/
def receive (m : Message) (handling : Handling) (s : State) : Option (State × Option (List Byte)) :=
  match s.captures m.launchId with
  | none => some (s.markChannelFailure dump "record_without_capture_writer", none)
  | some c =>
    let c := { c with received := c.received ++ [m] }
    if m.type = .planObservation then
      match handling.consumed with
      | .refused refusal =>
        some (s.setCapture m.launchId (c.call dump (.markCaptureError refusal.text true)), none)
      | .recorded text io =>
        some (s.setCapture m.launchId (c.call dump (.writeEncodedRecord text io)), some text)
      | .threw what => some
        ((s.setCapture m.launchId c).markChannelFailure dump ("plan_packet_error: " ++ what), none)
    else
      match discardReason m with
      | none => none
      | some (some reason) =>
        some (s.setCapture m.launchId (c.call dump (.markCaptureError reason true)), none)
      | some none => some (s.writeTrace dump m handling c)

/-- The last lines of a capture, which is then forgotten. -/
def closeCapture (launchId : ℕ) (calls : List Call) (s : State) : State :=
  match s.captures launchId with
  | none => s
  | some c =>
    let c := c.calls dump calls
    { s with
      captures := Function.update s.captures launchId none
      closed := s.closed ++ [⟨launchId, c, s.log.length⟩]
      hung := s.hung || c.writer.stuck }

/-- The errors of a request, before its writer is finished. -/
def requestErrors (r : CaptureCompletionRequest) (plan : Option FinishedTrace) (s : State) :
    List Call :=
  (if s.channelFailed then [.markCaptureError "channel_failure" false] else []) ++
    (if r.error = "" then [] else [.markCaptureError r.error false]) ++
    (if r.channelDrained then [] else [.markCaptureError "channel_drain_unverified" false]) ++
    (plan.map FinishedTrace.calls).getD []

/-- A writer for a launch, its metadata, and the error of a graph launch. -/
def createTraceWriter (launchId : ℕ) (opened : Bool) (bufferThreshold : ℕ)
    (metadata : List (List Byte)) (graph : Bool) (s : State) : State :=
  let calls := metadata.map Call.writeMetadata ++
    if graph then [.markCaptureError "graph_launch_completion_unverified" false] else []
  { s with
    queue := if graph then s.queue.registerGraphLaunch launchId else s.queue
    captures := Function.update s.captures launchId (some {
      writer := Writer.run dump (.create opened bufferThreshold) calls
      openedAt := s.log.length }) }

end State

inductive Action where
  -- other threads
  | launch (launchId : ℕ) (opened : Bool) (bufferThreshold : ℕ) (metadata : List (List Byte))
      (graph : Bool)
  | request (r : CaptureCompletionRequest)
  | requestGraphCompletion (kernelCompleted channelDrained : Bool) (error : String)
  | wait
  | failChannel
  -- the receiver
  | take (stopping : Bool)
  | finish (plan : Option FinishedTrace) (io : List WriteResult) (synced : Bool)
      (footer : List WriteResult)
  | finished
  | recv (chunk : List Byte)
  | parse (handling : Handling)
  | parsed
  | flush (launchId : ℕ) (io : List WriteResult)
  | disable (launchId : ℕ) (io : List WriteResult)
  | again
  | close (launchId : ℕ) (plan : Option FinishedTrace) (io : List WriteResult) (synced : Bool)
      (footer : List WriteResult)

/-- An iteration of the parse loop at `processed`. -/
def parseStep (chunk : List Byte) (processed : ℕ) (messages : List Message) (handling : Handling)
    (s : State) : State :=
  match nextMessage (chunk.drop processed) with
  | none => { s with overread := true, phase := .between }
  | some (.failed reason) =>
    { s.markChannelFailure dump reason with
      phase := .between
      log := s.log ++ [⟨.malformed (chunk.drop processed), none⟩]
      parsed := s.parsed ++ [⟨chunk, messages, chunk.drop processed⟩] }
  | some (.message m) =>
    match s.receive dump m handling with
    | none => { s with overread := true, phase := .between }
    | some (s', text) =>
      { s' with
        phase := .parsing chunk (processed + getMessageSize m.type) (messages ++ [m])
        log := s.log ++ [⟨.message m, text⟩] }

/-- What the receiver does next, where it can; `stopping` is whether it was told to end. -/
def receiverStep : Action → State → Option State
  | .take stopping, s =>
    match s.phase with
    | .boundary => some { s with
        queue := s.queue.takeAtChunkBoundary.2
        phase := .finishing s.queue.takeAtChunkBoundary.1 stopping }
    | _ => none
  | .finish plan io synced footer, s =>
    match s.phase with
    | .finishing (r :: ready) stopping => some { s.closeCapture dump r.launchId
        (s.requestErrors r plan ++
          [.finish r.launchId r.kernelCompleted r.channelDrained io synced footer]) with
        phase := .finishing ready stopping }
    | _ => none
  | .finished, s =>
    match s.phase with
    | .finishing [] stopping => some { s with
        queue := s.queue.finishedChunkBoundary
        phase := if stopping then .ending else .receiving }
    | _ => none
  | .recv chunk, s =>
    match s.phase with
    | .receiving => some { s with phase := .parsing chunk 0 [] }
    | _ => none
  | .parse handling, s =>
    match s.phase with
    | .parsing chunk processed messages =>
      if processed < chunk.length then some (parseStep dump chunk processed messages handling s)
      else none
    | _ => none
  | .parsed, s =>
    match s.phase with
    | .parsing chunk processed messages =>
      if processed < chunk.length then none
      else some { s with
        phase := .between
        parsed := s.parsed ++ [⟨chunk, messages, []⟩] }
    | _ => none
  | .flush launchId io, s =>
    match s.phase, s.captures launchId with
    | .between, some c => some (s.setCapture launchId (c.call dump (.flush io)))
    | _, _ => none
  | .disable launchId io, s =>
    match s.phase, s.captures launchId with
    | .between, some c => some (s.setCapture launchId (c.call dump (.disable io)))
    | _, _ => none
  | .again, s =>
    match s.phase with
    | .between => some { s with phase := .boundary }
    | _ => none
  | .close launchId plan io synced footer, s =>
    match s.phase with
    | .ending => some (s.closeCapture dump launchId
        ((plan.map FinishedTrace.calls).getD [] ++ [.finish launchId false false io synced footer]))
    | _ => none
  | _, _ => none

/-- A step of some thread; the receiver takes none while a write hangs. -/
def step : Action → State → Option State
  | .launch launchId opened bufferThreshold metadata graph, s =>
    some (s.createTraceWriter dump launchId opened bufferThreshold metadata graph)
  | .request r, s => some { s with queue := s.queue.request r }
  | .requestGraphCompletion completed drained error, s =>
    some { s with queue := s.queue.requestGraphCompletion completed drained error }
  | .wait, s => some { s with queue := s.queue.ticket.2 }
  | .failChannel, s => some { s with channelFailed := true }
  | action, s => if s.hung then none else receiverStep dump action s

def run (actions : List Action) (s : State) : Option State :=
  actions.foldlM (fun s action => step dump action s) s

end

/-! ### The log -/

def Entry.owned (launchId : ℕ) (e : Entry) : Option (Message × Option (List Byte)) :=
  match e.item with
  | .message m => if m.launchId = launchId then some (m, e.text) else none
  | .malformed _ => none

def owned (launchId : ℕ) (log : List Entry) : List (Message × Option (List Byte)) :=
  log.filterMap (Entry.owned launchId)

def Whole (log : List Entry) : Prop := ∀ e ∈ log, ∀ remaining, e.item ≠ .malformed remaining

theorem owned_append (launchId : ℕ) (log : List Entry) (e : Entry) :
    owned launchId (log ++ [e]) = owned launchId log ++ (e.owned launchId).toList := by
  rw [owned, List.filterMap_append, List.filterMap_cons, List.filterMap_nil]
  cases e.owned launchId <;> rfl

theorem owned_self (m : Message) (text : Option (List Byte)) :
    (⟨.message m, text⟩ : Entry).owned m.launchId = some (m, text) := if_pos rfl

theorem owned_other {m : Message} {launchId : ℕ} (h : m.launchId ≠ launchId)
    (text : Option (List Byte)) : (⟨.message m, text⟩ : Entry).owned launchId = none := if_neg h

theorem Whole.append {log : List Entry} (h : Whole log) (m : Message)
    (text : Option (List Byte)) : Whole (log ++ [⟨.message m, text⟩]) := by
  intro e he remaining
  obtain he | he := List.mem_append.mp he
  · exact h e he remaining
  · rw [List.mem_singleton.mp he]
    exact fun hitem => by cases hitem

section

variable {dump : Completion → List Byte} {log : List Entry} {failed : Bool} {launchId : ℕ}
  {c : LaunchTrace} {s s' : State}

/-! ### Open captures -/

/-- The writer received the messages of its launch since it was opened, and while it knows
of no error it was offered the records that were made of them. -/
structure Owns (dump : Completion → List Byte) (log : List Entry) (failed : Bool)
    (launchId : ℕ) (c : LaunchTrace) : Prop where
  openedAt : c.openedAt ≤ log.length
  received : c.received = (owned launchId (log.drop c.openedAt)).map Prod.fst
  unfinished : Writer.Open dump c.writer
  told : c.writer.captureErrors = ∅ → c.writer.droppedRecords = 0 → failed = false →
    c.writer.offered = (owned launchId (log.drop c.openedAt)).map Prod.snd ∧
      Whole (log.drop c.openedAt)

variable (h : Owns dump log failed launchId c)

include h in
theorem Owns.fail : Owns dump log true launchId c :=
  ⟨h.openedAt, h.received, h.unfinished, fun _ _ hfailed => by cases hfailed⟩

include h in
theorem Owns.other {m : Message} (hm : m.launchId ≠ launchId) (text : Option (List Byte)) :
    Owns dump (log ++ [⟨.message m, text⟩]) failed launchId c := by
  have hnone : owned launchId (log.drop c.openedAt ++ [⟨.message m, text⟩]) =
      owned launchId (log.drop c.openedAt) := by
    rw [owned_append, owned_other hm, Option.toList_none, List.append_nil]
  constructor
  · rw [List.length_append]
    exact h.openedAt.trans (Nat.le_add_right _ _)
  · rw [List.drop_append_of_le_length h.openedAt, hnone]
    exact h.received
  · exact h.unfinished
  · intro herrors hdropped hfailed
    rw [List.drop_append_of_le_length h.openedAt, hnone]
    obtain ⟨hoffered, hwhole⟩ := h.told herrors hdropped hfailed
    exact ⟨hoffered, hwhole.append m text⟩

include h in
/-- Bytes at whose start no message stands fail the channel. -/
theorem Owns.malformed (remaining : List Byte) :
    Owns dump (log ++ [⟨.malformed remaining, none⟩]) true launchId c := by
  constructor
  · rw [List.length_append]
    exact h.openedAt.trans (Nat.le_add_right _ _)
  · rw [List.drop_append_of_le_length h.openedAt, owned_append]
    show c.received = (owned launchId (log.drop c.openedAt) ++ []).map Prod.fst
    rw [List.append_nil]
    exact h.received
  · exact h.unfinished
  · intro _ _ hfailed
    cases hfailed

include h in
/-- A call that neither closes the file nor offers a record. -/
theorem Owns.call (hstuck : c.writer.stuck = false) {call : Call} (hcloses : call.closes = false)
    (hoffers : call.offers = []) : Owns dump log failed launchId (c.call dump call) := by
  obtain ⟨hgrows, hoffered⟩ := @Writer.step_frame dump c.writer hstuck call
  refine ⟨h.openedAt, h.received, h.unfinished.step_open hstuck hcloses, ?_⟩
  intro herrors hdropped hfailed
  have hnone : c.writer.captureErrors = ∅ := Finset.subset_empty.mp (herrors ▸ hgrows.errors)
  have hzero : c.writer.droppedRecords = 0 := Nat.le_zero.mp (hdropped ▸ hgrows.dropped)
  obtain ⟨htold, hwhole⟩ := h.told hnone hzero hfailed
  refine ⟨?_, hwhole⟩
  show (Writer.step dump c.writer call).offered =
    (owned launchId (log.drop c.openedAt)).map Prod.snd
  rw [hoffered h.unfinished.unfinished, hoffers, List.append_nil, htold]

include h in
theorem received_append {m : Message} (hm : m.launchId = launchId) (text : Option (List Byte)) :
    c.received ++ [m] =
      (owned launchId ((log ++ [⟨.message m, text⟩] : List Entry).drop c.openedAt)).map Prod.fst := by
  subst hm
  rw [List.drop_append_of_le_length h.openedAt, owned_append, owned_self, List.map_append,
    ← h.received]
  rfl

include h in
/-- A message of the launch is received, and either the record that is made of it is
offered or the writer is told that there is none. -/
theorem Owns.receive (hstuck : c.writer.stuck = false) {m : Message} (hm : m.launchId = launchId)
    (traceIndex : ℕ) {call : Call} {text : Option (List Byte)}
    (hcall : (∃ reason, call = .markCaptureError reason true) ∨ call.offers = [text]) :
    Owns dump (log ++ [⟨.message m, text⟩]) failed launchId
      ({ c with traceIndex, received := c.received ++ [m] }.call dump call) := by
  have hcloses : call.closes = false := by
    obtain ⟨reason, rfl⟩ | hoffers := hcall
    · rfl
    · cases call with
      | finish _ _ _ _ _ _ => cases hoffers
      | writeMetadata _ | writeEncodedRecord _ _ | writeTrace _ _ _ | flush _ | disable _
      | markCaptureError _ _ => rfl
  refine ⟨?_, received_append h hm text, h.unfinished.step_open hstuck hcloses, ?_⟩
  · rw [List.length_append]
    exact h.openedAt.trans (Nat.le_add_right _ _)
  intro herrors hdropped hfailed
  obtain ⟨hgrows, hoffered⟩ := @Writer.step_frame dump c.writer hstuck call
  obtain ⟨reason, rfl⟩ | hoffers := hcall
  · have hreturned : ¬c.writer.stuck = true := by
      rw [Bool.not_eq_true]
      exact hstuck
    have hmarked : (Writer.step dump c.writer (.markCaptureError reason true)).droppedRecords = 0 :=
      hdropped
    rw [Writer.step, if_neg hreturned] at hmarked
    cases hmarked
  · have hnone : c.writer.captureErrors = ∅ := Finset.subset_empty.mp (herrors ▸ hgrows.errors)
    have hzero : c.writer.droppedRecords = 0 := Nat.le_zero.mp (hdropped ▸ hgrows.dropped)
    obtain ⟨htold, hwhole⟩ := h.told hnone hzero hfailed
    subst hm
    show (Writer.step dump c.writer call).offered = (owned m.launchId
        ((log ++ [⟨.message m, text⟩] : List Entry).drop c.openedAt)).map Prod.snd ∧
      Whole ((log ++ [⟨.message m, text⟩] : List Entry).drop c.openedAt)
    rw [List.drop_append_of_le_length h.openedAt, owned_append, owned_self,
      hoffered h.unfinished.unfinished, hoffers, htold, List.map_append]
    exact ⟨rfl, hwhole.append m text⟩

include h in
/-- A message of the launch is received, and the channel fails over it. -/
theorem Owns.receiveFail {m : Message} (hm : m.launchId = launchId) :
    Owns dump (log ++ [⟨.message m, none⟩]) true launchId
      { c with received := c.received ++ [m] } := by
  refine ⟨?_, received_append h hm none, h.unfinished, fun _ _ hfailed => by cases hfailed⟩
  rw [List.length_append]
  exact h.openedAt.trans (Nat.le_add_right _ _)

theorem owns_create (opened : Bool) (bufferThreshold : ℕ) {calls : List Call}
    (hquiet : ∀ call ∈ calls, call.quiet = true) :
    let w := Writer.run dump (.create opened bufferThreshold) calls
    Owns dump log failed launchId { writer := w, openedAt := log.length } ∧ w.stuck = false := by
  intro w
  obtain ⟨hopen, hstuck, -, hoffered⟩ :=
    (@Writer.open_create dump opened bufferThreshold).run_quiet rfl hquiet
  refine ⟨⟨le_rfl, ?_, hopen, fun _ _ _ => ?_⟩, hstuck⟩
  · show [] = (owned launchId (log.drop log.length)).map Prod.fst
    rw [List.drop_length]
    rfl
  · show w.offered = (owned launchId (log.drop log.length)).map Prod.snd ∧
      Whole (log.drop log.length)
    rw [List.drop_length]
    exact ⟨hoffered, fun e he => by cases he⟩

/-! ### Closed captures -/

/-- What was logged while the capture was open. -/
def Closed.span (k : Closed) (log : List Entry) : List Entry :=
  (log.take k.closedAt).drop k.capture.openedAt

/-- A capture that is said to be complete holds the records of all messages of its launch,
and everything was parsed while it was open. -/
structure Told (log : List Entry) (k : Closed) : Prop where
  closedAt : k.closedAt ≤ log.length
  received : k.capture.received = (owned k.launchId (k.span log)).map Prod.fst
  complete : ∀ c, Line.completion c ∈ k.capture.writer.lines → c.complete = true →
    Whole (k.span log) ∧
      (owned k.launchId (k.span log)).map Prod.snd = (records k.capture.writer.lines).map some ∧
      c.traceRecordsWritten = (owned k.launchId (k.span log)).length

theorem Told.append {k : Closed} (h : Told log k) (e : Entry) : Told (log ++ [e]) k := by
  have hspan : k.span (log ++ [e]) = k.span log := by
    rw [Closed.span, Closed.span, List.take_append_of_le_length h.closedAt]
  refine ⟨?_, ?_, ?_⟩
  · rw [List.length_append]
    exact h.closedAt.trans (Nat.le_add_right _ _)
  · rw [hspan]
    exact h.received
  · rw [hspan]
    exact h.complete

include h in
/-- A writer is finished. A failed channel is among the errors that are added before, or
the capture is not called complete. -/
theorem Owns.close (hstuck : c.writer.stuck = false) {quiet : List Call}
    (hquiet : ∀ call ∈ quiet, call.quiet = true) {completed drained : Bool}
    (hfailed : failed = true → (completed && drained) = false ∨ ∃ reason, Call.markCaptureError reason false ∈ quiet)
    (io : List WriteResult) (synced : Bool) (footer : List WriteResult) :
    Told log ⟨launchId,
      c.calls dump (quiet ++ [.finish launchId completed drained io synced footer]), log.length⟩ := by
  have hspan : (log.take log.length).drop c.openedAt = log.drop c.openedAt := by
    rw [List.take_length]
  refine ⟨le_rfl, ?_, ?_⟩
  · show c.received = (owned launchId ((log.take log.length).drop c.openedAt)).map Prod.fst
    rw [hspan]
    exact h.received
  intro line hline hcomplete
  obtain ⟨hopen, hreturned, hgrows, hoffered⟩ := h.unfinished.run_quiet hstuck hquiet
  have hmarked (reason : String) := @Writer.Open.run_marked dump c.writer h.unfinished hstuck quiet hquiet
    reason false
  have hrun : Writer.run dump c.writer
      (quiet ++ [.finish launchId completed drained io synced footer]) =
        (Writer.run dump c.writer quiet).finish dump launchId completed drained io synced footer := by
    have hgoes : ¬(Writer.run dump c.writer quiet).stuck = true := by
      rw [Bool.not_eq_true]
      exact hreturned
    rw [Writer.run, List.foldl_append]
    exact if_neg hgoes
  show Whole ((log.take log.length).drop c.openedAt) ∧
    (owned launchId ((log.take log.length).drop c.openedAt)).map Prod.snd =
      (records (Writer.run dump c.writer
        (quiet ++ [.finish launchId completed drained io synced footer])).lines).map some ∧
    line.traceRecordsWritten = (owned launchId ((log.take log.length).drop c.openedAt)).length
  have hline' : Line.completion line ∈ (Writer.run dump c.writer
      (quiet ++ [.finish launchId completed drained io synced footer])).lines := hline
  rw [hrun] at hline' ⊢
  rw [hspan]
  obtain ⟨hempty, hzero, hverified, hrecords, hnumber⟩ := hopen.finish_complete hreturned hline' hcomplete
  have hsound : failed = false := by
    cases hf : failed with
    | false => rfl
    | true =>
      obtain hunverified | ⟨reason, hmem⟩ := hfailed hf
      · rw [hverified] at hunverified
        cases hunverified
      · exact absurd hempty (hmarked reason hmem)
  have hnone : c.writer.captureErrors = ∅ := Finset.subset_empty.mp (hempty ▸ hgrows.errors)
  have hdropped : c.writer.droppedRecords = 0 := Nat.le_zero.mp (hzero ▸ hgrows.dropped)
  obtain ⟨htold, hwhole⟩ := h.told hnone hdropped hsound
  rw [← htold, ← hoffered]
  refine ⟨hwhole, hrecords, ?_⟩
  rw [hnumber, hoffered, htold, List.length_map]

/-! ### The captures of a state -/

structure Sound (dump : Completion → List Byte) (s : State) : Prop where
  captures : ∀ launchId c, s.captures launchId = some c →
    Owns dump s.log s.channelFailed launchId c
  running : s.hung = false → ∀ launchId c, s.captures launchId = some c → c.writer.stuck = false
  closed : ∀ k ∈ s.closed, Told s.log k

theorem sound_start : Sound dump {} where
  captures := fun _ _ h => by cases h
  running := fun _ _ _ h => by cases h
  closed := fun _ h => by cases h

theorem update_cases {captures : ℕ → Option LaunchTrace} {c' : LaunchTrace} {launchId' : ℕ}
    (h : Function.update captures launchId (some c') launchId' = some c) :
    (launchId' = launchId ∧ c = c') ∨ (launchId' ≠ launchId ∧ captures launchId' = some c) := by
  by_cases hsame : launchId' = launchId
  · subst hsame
    rw [Function.update_self] at h
    exact .inl ⟨rfl, (Option.some.inj h).symm⟩
  · rw [Function.update_of_ne hsame] at h
    exact .inr ⟨hsame, h⟩

/-- The writer of a launch is replaced, and the log grows or stays as it is. -/
theorem Sound.replace (h : Sound dump s) (hrunning : s.hung = false) {c' : LaunchTrace}
    (hc : Owns dump log s.channelFailed launchId c')
    (hothers : ∀ launchId' c, launchId' ≠ launchId → s.captures launchId' = some c →
      Owns dump log s.channelFailed launchId' c)
    (hclosed : ∀ k ∈ s.closed, Told log k) :
    Sound dump { s.setCapture launchId c' with log } where
  captures := fun launchId' c hlaunch => by
    obtain ⟨rfl, rfl⟩ | ⟨hne, hlaunch⟩ := update_cases hlaunch
    · exact hc
    · exact hothers launchId' c hne hlaunch
  running := fun hhung launchId' c hlaunch => by
    have hhung' : (s.hung || c'.writer.stuck) = false := hhung
    obtain ⟨rfl, rfl⟩ | ⟨-, hlaunch⟩ := update_cases hlaunch
    · exact (Bool.or_eq_false_iff.mp hhung').2
    · exact h.running hrunning launchId' c hlaunch
  closed := hclosed

theorem Sound.handle (h : Sound dump s) (hrunning : s.hung = false) {m : Message}
    {text : Option (List Byte)} {c' : LaunchTrace}
    (hc : Owns dump (s.log ++ [⟨.message m, text⟩]) s.channelFailed m.launchId c') :
    Sound dump { s.setCapture m.launchId c' with log := s.log ++ [⟨.message m, text⟩] } :=
  h.replace hrunning hc
    (fun launchId' c hne hlaunch => (h.captures launchId' c hlaunch).other (Ne.symm hne) text)
    fun k hk => (h.closed k hk).append _

/-- A call that neither closes the file nor offers a record. -/
theorem Sound.call (h : Sound dump s) (hrunning : s.hung = false)
    (hc : s.captures launchId = some c) {call : Call} (hcloses : call.closes = false)
    (hoffers : call.offers = []) : Sound dump (s.setCapture launchId (c.call dump call)) :=
  h.replace hrunning
    ((h.captures launchId c hc).call (h.running hrunning launchId c hc) hcloses hoffers)
    (fun launchId' c _ hlaunch => h.captures launchId' c hlaunch) h.closed

/-- The channel fails over an entry; every writer is told. -/
theorem sound_fail (reason : String) (e : Entry)
    (hcaptures : ∀ launchId c, s.captures launchId = some c →
      Owns dump (s.log ++ [e]) true launchId c ∧ c.writer.stuck = false)
    (hclosed : ∀ k ∈ s.closed, Told s.log k) :
    Sound dump { s.markChannelFailure dump reason with log := s.log ++ [e] } where
  captures := fun launchId c hlaunch => by
    obtain ⟨c', hc', rfl⟩ := Option.map_eq_some_iff.mp hlaunch
    obtain ⟨howns, hstuck⟩ := hcaptures launchId c' hc'
    exact howns.call hstuck rfl rfl
  running := fun _ launchId c hlaunch => by
    obtain ⟨c', hc', rfl⟩ := Option.map_eq_some_iff.mp hlaunch
    exact Writer.stuck_of_quiet (hcaptures launchId c' hc').2 rfl
  closed := fun k hk => (hclosed k hk).append e

/-- What `receive` leaves alone. -/
def SameLog (s s' : State) : Prop :=
  s'.log = s.log ∧ s'.parsed = s.parsed ∧ s'.overread = s.overread ∧ s'.phase = s.phase

theorem receive_sound (h : Sound dump s) (hrunning : s.hung = false) {m : Message}
    (hm : m.WellFormed) (handling : Handling) :
    ∃ s' text, s.receive dump m handling = some (s', text) ∧ SameLog s s' ∧
      Sound dump { s' with log := s.log ++ [⟨.message m, text⟩] } := by
  unfold State.receive
  cases hcapture : s.captures m.launchId with
  | none =>
    refine ⟨_, _, rfl, ⟨rfl, rfl, rfl, rfl⟩, sound_fail _ _ (fun launchId c hc => ?_) h.closed⟩
    have hother : m.launchId ≠ launchId := by
      intro heq
      rw [← heq, hcapture] at hc
      cases hc
    exact ⟨((h.captures launchId c hc).other hother none).fail, h.running hrunning launchId c hc⟩
  | some c =>
    have howns := h.captures m.launchId c hcapture
    have hstuck := h.running hrunning m.launchId c hcapture
    dsimp only
    by_cases hplan : m.type = .planObservation
    · rw [if_pos hplan]
      cases handling.consumed with
      | refused refusal =>
        exact ⟨_, _, rfl, ⟨rfl, rfl, rfl, rfl⟩,
          h.handle hrunning (howns.receive hstuck rfl c.traceIndex (.inl ⟨_, rfl⟩))⟩
      | recorded text io =>
        exact ⟨_, _, rfl, ⟨rfl, rfl, rfl, rfl⟩,
          h.handle hrunning (howns.receive hstuck rfl c.traceIndex (.inr rfl))⟩
      | threw what =>
        refine ⟨_, _, rfl, ⟨rfl, rfl, rfl, rfl⟩, sound_fail _ _ (fun launchId' c' hc' => ?_) h.closed⟩
        obtain ⟨rfl, rfl⟩ | ⟨hne, hc'⟩ := update_cases hc'
        · exact ⟨howns.receiveFail rfl, hstuck⟩
        · exact ⟨((h.captures launchId' c' hc').other (Ne.symm hne) none).fail,
            h.running hrunning launchId' c' hc'⟩
    · rw [if_neg hplan]
      obtain ⟨reason, hreason⟩ := discardReason_isSome hm
      rw [hreason]
      cases reason with
      | some reason =>
        exact ⟨_, _, rfl, ⟨rfl, rfl, rfl, rfl⟩,
          h.handle hrunning (howns.receive hstuck rfl c.traceIndex (.inl ⟨_, rfl⟩))⟩
      | none =>
        exact ⟨_, _, rfl, ⟨rfl, rfl, rfl, rfl⟩,
          h.handle hrunning (howns.receive hstuck rfl (c.traceIndex + 1) (.inr rfl))⟩

theorem Sound.createTraceWriter (h : Sound dump s) (launchId : ℕ) (opened : Bool)
    (bufferThreshold : ℕ) (metadata : List (List Byte)) (graph : Bool) :
    Sound dump (s.createTraceWriter dump launchId opened bufferThreshold metadata graph) := by
  have hquiet : ∀ call ∈ metadata.map Call.writeMetadata ++
      (if graph then [Call.markCaptureError "graph_launch_completion_unverified" false] else []),
      call.quiet = true := by
    intro call hcall
    obtain hcall | hcall := List.mem_append.mp hcall
    · obtain ⟨text, -, rfl⟩ := List.mem_map.mp hcall
      rfl
    · cases graph with
      | true => rw [List.mem_singleton.mp hcall]; rfl
      | false => cases hcall
  obtain ⟨howns, hstuck⟩ := @owns_create dump s.log s.channelFailed launchId opened bufferThreshold _ hquiet
  refine ⟨fun launchId' c hlaunch => ?_, fun hhung launchId' c hlaunch => ?_, h.closed⟩
  · obtain ⟨rfl, rfl⟩ | ⟨-, hlaunch⟩ := update_cases hlaunch
    · exact howns
    · exact h.captures launchId' c hlaunch
  · obtain ⟨rfl, rfl⟩ | ⟨-, hlaunch⟩ := update_cases hlaunch
    · exact hstuck
    · exact h.running hhung launchId' c hlaunch

theorem finishedTrace_quiet (plan : Option FinishedTrace) :
    ∀ call ∈ (plan.map FinishedTrace.calls).getD [], call.quiet = true := by
  intro call hcall
  cases plan with
  | none => cases hcall
  | some plan =>
    cases plan with
    | missing => rw [List.mem_singleton.mp hcall]; rfl
    | threw what => rw [List.mem_singleton.mp hcall]; rfl
    | described complete text sink =>
      obtain hcall | hcall := List.mem_append.mp hcall
      · obtain hcall | hcall := List.mem_append.mp hcall
        · cases complete with
          | true => cases hcall
          | false => rw [List.mem_singleton.mp hcall]; rfl
        · rw [List.mem_singleton.mp hcall]; rfl
      · obtain ⟨what, -, rfl⟩ := List.mem_map.mp hcall
        rfl

theorem Sound.closeCapture (h : Sound dump s) (hrunning : s.hung = false) (launchId : ℕ)
    (completed drained : Bool) {quiet : List Call} (hquiet : ∀ call ∈ quiet, call.quiet = true)
    (hfailed : s.channelFailed = true → (completed && drained) = false ∨
      ∃ reason, Call.markCaptureError reason false ∈ quiet)
    (io : List WriteResult) (synced : Bool) (footer : List WriteResult) :
    Sound dump (s.closeCapture dump launchId
      (quiet ++ [.finish launchId completed drained io synced footer])) := by
  unfold State.closeCapture
  cases hcapture : s.captures launchId with
  | none => exact h
  | some c =>
    have htold := (h.captures launchId c hcapture).close (h.running hrunning launchId c hcapture)
      hquiet hfailed io synced footer
    have hrest {launchId' : ℕ} {c' : LaunchTrace}
        (hc' : Function.update s.captures launchId none launchId' = some c') :
        s.captures launchId' = some c' := by
      by_cases hsame : launchId' = launchId
      · subst hsame
        rw [Function.update_self] at hc'
        cases hc'
      · rwa [Function.update_of_ne hsame] at hc'
    refine ⟨fun launchId' c' hc' => h.captures launchId' c' (hrest hc'),
      fun _ launchId' c' hc' => h.running hrunning launchId' c' (hrest hc'), fun k hk => ?_⟩
    obtain hk | hk := List.mem_append.mp hk
    · exact h.closed k hk
    · rw [List.mem_singleton.mp hk]
      exact htold

/-! ### The parse loop -/

/-- The messages of a chunk and what is left of it, which has no message at its start. -/
structure ParsedChunk.Right (p : ParsedChunk) : Prop where
  bytes : p.bytes = (p.messages.map Message.bytes).flatten ++ p.rest
  wellFormed : ∀ m ∈ p.messages, m.WellFormed
  malformed : Malformed p.rest

/-- Nothing was read past the end, and the log follows the chunks. -/
structure Parsing (s : State) : Prop where
  overread : s.overread = false
  chunk : ∀ chunk processed messages, s.phase = .parsing chunk processed messages →
    processed ≤ chunk.length ∧ chunk.take processed = (messages.map Message.bytes).flatten ∧
      ∀ m ∈ messages, m.WellFormed
  parsed : ∀ p ∈ s.parsed, p.Right
  log : s.log.map Entry.item =
    s.parsed.flatMap ParsedChunk.items ++ s.phase.messages.map Item.message

theorem parsing_start : Parsing {} where
  overread := rfl
  chunk := fun _ _ _ h => by cases h
  parsed := fun _ h => by cases h
  log := rfl

/-- A step outside the parse loop. -/
theorem Parsing.frame (h : Parsing s) (hsame : s'.overread = s.overread ∧ s'.log = s.log ∧
    s'.parsed = s.parsed) (hbefore : s.phase.messages = [])
    (hafter : s'.phase.messages = [])
    (hphase : ∀ chunk processed messages, s'.phase = .parsing chunk processed messages →
      processed = 0) : Parsing s' := by
  obtain ⟨hoverread, hlog, hparsed⟩ := hsame
  refine ⟨hoverread.trans h.overread, fun chunk processed messages hp => ?_, ?_, ?_⟩
  · have hzero := hphase chunk processed messages hp
    rw [hp] at hafter
    have hnone : messages = [] := hafter
    subst hzero hnone
    exact ⟨Nat.zero_le _, rfl, fun m hm => by cases hm⟩
  · rw [hparsed]
    exact h.parsed
  · rw [hlog, hparsed, hafter, h.log, hbefore]

/-- A step of another thread. -/
theorem Parsing.other (h : Parsing s) (hsame : s'.overread = s.overread ∧ s'.log = s.log ∧
    s'.parsed = s.parsed ∧ s'.phase = s.phase) : Parsing s' := by
  obtain ⟨hoverread, hlog, hparsed, hphase⟩ := hsame
  constructor
  · exact hoverread.trans h.overread
  · rw [hphase]
    exact h.chunk
  · rw [hparsed]
    exact h.parsed
  · rw [hlog, hparsed, hphase]
    exact h.log

theorem malformed_nil : Malformed [] := .of_short (by decide)

theorem parseStep_parsing (h : Parsing s) (hsound : Sound dump s) (hrunning : s.hung = false)
    {chunk : List Byte} {processed : ℕ} {messages : List Message}
    (hphase : s.phase = .parsing chunk processed messages) (hmore : processed < chunk.length)
    (handling : Handling) :
    let s' := parseStep dump chunk processed messages handling s
    Parsing s' ∧ Sound dump s' ∧ s'.left < s.left := by
  obtain ⟨-, htake, hmessages⟩ := h.chunk chunk processed messages hphase
  have hlog := h.log
  rw [hphase] at hlog
  have hleft : s.left = chunk.length - processed := by rw [State.left, hphase]
  obtain ⟨found, hnext, hfound⟩ := nextMessage_found (chunk.drop processed)
  dsimp only
  cases hfound with
  | failed reason hmalformed =>
    have hstep : parseStep dump chunk processed messages handling s =
        { s.markChannelFailure dump reason with
          phase := .between
          log := s.log ++ [⟨.malformed (chunk.drop processed), none⟩]
          parsed := s.parsed ++ [⟨chunk, messages, chunk.drop processed⟩] } := by
      unfold parseStep
      rw [hnext]
    rw [hstep]
    have hrest : chunk.drop processed ≠ [] := by
      intro hnil
      have := List.drop_eq_nil_iff.mp hnil
      omega
    refine ⟨⟨h.overread, fun _ _ _ hp => (by cases hp), ?_, ?_⟩, ?_, ?_⟩
    · intro p hp
      obtain hp | hp := List.mem_append.mp hp
      · exact h.parsed p hp
      · rw [List.mem_singleton.mp hp]
        refine ⟨?_, hmessages, hmalformed⟩
        show chunk = (messages.map Message.bytes).flatten ++ chunk.drop processed
        rw [← htake, List.take_append_drop]
    · have hitems : (⟨chunk, messages, chunk.drop processed⟩ : ParsedChunk).items =
          messages.map Item.message ++ [.malformed (chunk.drop processed)] := by
        rw [ParsedChunk.items, if_neg hrest]
      show (s.log ++ [(⟨.malformed (chunk.drop processed), none⟩ : Entry)]).map Entry.item =
        (s.parsed ++ [(⟨chunk, messages, chunk.drop processed⟩ : ParsedChunk)]).flatMap ParsedChunk.items ++ []
      rw [List.map_append, hlog, List.flatMap_append, List.flatMap_singleton, hitems, List.append_nil,
        List.append_assoc]
      rfl
    · have hall := @sound_fail dump s reason ⟨.malformed (chunk.drop processed), none⟩
        (fun launchId c hc =>
          ⟨(hsound.captures launchId c hc).malformed _, hsound.running hrunning launchId c hc⟩)
        hsound.closed
      exact { hall with }
    · rw [hleft]
      show 0 < chunk.length - processed
      omega
  | message hm hhead =>
    rename_i m
    obtain ⟨s', text, hreceive, ⟨hlog', hparsed', hoverread', -⟩, hsound'⟩ :=
      receive_sound hsound hrunning hm handling
    have hsize := hm.size
    have hpos := hm.pos
    have hfits := hhead.length_le
    rw [List.length_drop] at hfits
    have hstep : parseStep dump chunk processed messages handling s =
        { s' with
          phase := .parsing chunk (processed + getMessageSize m.type) (messages ++ [m])
          log := s.log ++ [⟨.message m, text⟩] } := by
      unfold parseStep
      rw [hnext]
      dsimp only
      rw [hreceive]
    rw [hstep]
    refine ⟨⟨hoverread'.trans h.overread, ?_, ?_, ?_⟩, ?_, ?_⟩
    · intro chunk' processed' messages' hp
      cases hp
      refine ⟨by omega, ?_, ?_⟩
      · obtain ⟨rest, hrest⟩ := hhead
        rw [List.map_append, List.flatten_append, ← htake, List.take_add, ← hrest, ← hsize,
          List.take_left]
        exact congrArg _ (List.append_nil _).symm
      · intro m' hm'
        obtain hm' | hm' := List.mem_append.mp hm'
        · exact hmessages m' hm'
        · rw [List.mem_singleton.mp hm']
          exact hm
    · rw [hparsed']
      exact h.parsed
    · show (s.log ++ [(⟨.message m, text⟩ : Entry)]).map Entry.item =
        s'.parsed.flatMap ParsedChunk.items ++ (messages ++ [m]).map Item.message
      rw [hparsed', List.map_append, hlog, List.map_append, List.append_assoc]
      rfl
    · exact { hsound' with }
    · rw [hleft]
      show chunk.length - (processed + getMessageSize m.type) < chunk.length - processed
      omega

/-! ### Runs -/

theorem closeCapture_same (launchId : ℕ) (calls : List Call) (s : State) :
    SameLog s (s.closeCapture dump launchId calls) := by
  unfold State.closeCapture
  cases s.captures launchId with
  | none => exact ⟨rfl, rfl, rfl, rfl⟩
  | some c => exact ⟨rfl, rfl, rfl, rfl⟩

theorem requestErrors_quiet (r : CaptureCompletionRequest) (plan : Option FinishedTrace)
    (s : State) : ∀ call ∈ s.requestErrors r plan, call.quiet = true := by
  intro call hcall
  obtain hcall | hcall := List.mem_append.mp hcall
  · obtain hcall | hcall := List.mem_append.mp hcall
    · obtain hcall | hcall := List.mem_append.mp hcall
      · cases hfailed : s.channelFailed with
        | true => rw [hfailed] at hcall; rw [List.mem_singleton.mp hcall]; rfl
        | false => rw [hfailed] at hcall; cases hcall
      · by_cases herror : r.error = ""
        · rw [if_pos herror] at hcall; cases hcall
        · rw [if_neg herror] at hcall; rw [List.mem_singleton.mp hcall]; rfl
    · cases hdrained : r.channelDrained with
      | true => rw [hdrained] at hcall; cases hcall
      | false => rw [hdrained] at hcall; rw [List.mem_singleton.mp hcall]; rfl
  · exact finishedTrace_quiet plan call hcall

theorem requestErrors_failed (r : CaptureCompletionRequest) (plan : Option FinishedTrace)
    (h : s.channelFailed = true) :
    Call.markCaptureError "channel_failure" false ∈ s.requestErrors r plan := by
  rw [State.requestErrors, if_pos h]
  exact List.mem_append_left _ (List.mem_append_left _ (List.mem_append_left _ List.mem_cons_self))

/-- What a step of the receiver keeps; only a new chunk leaves it more to parse. -/
theorem receiverStep_keeps (h : Parsing s) (hsound : Sound dump s) (hrunning : s.hung = false)
    {action : Action} (hstep : receiverStep dump action s = some s') :
    Parsing s' ∧ Sound dump s' ∧ ((∀ chunk, action ≠ .recv chunk) → s'.left ≤ s.left) := by
  cases action with
  | launch _ _ _ _ _ | request _ | requestGraphCompletion _ _ _ | wait | failChannel => cases hstep
  | take stopping =>
    simp only [receiverStep] at hstep
    split at hstep
    · rename_i hphase
      cases hstep
      refine ⟨h.frame ⟨rfl, rfl, rfl⟩ (by rw [hphase]; rfl) rfl (fun _ _ _ hp => by cases hp),
        { hsound with }, fun _ => Nat.zero_le _⟩
    · cases hstep
  | finish plan io synced footer =>
    simp only [receiverStep] at hstep
    split at hstep
    · rename_i r ready stopping hphase
      cases hstep
      have hclose := hsound.closeCapture hrunning r.launchId r.kernelCompleted r.channelDrained
        (requestErrors_quiet r plan s) (fun hfailed => .inr ⟨_, requestErrors_failed r plan hfailed⟩) io synced footer
      obtain ⟨hlog, hparsed, hoverread, -⟩ := @closeCapture_same dump r.launchId
        (s.requestErrors r plan ++
          [.finish r.launchId r.kernelCompleted r.channelDrained io synced footer]) s
      refine ⟨h.frame ⟨hoverread, hlog, hparsed⟩ (by rw [hphase]; rfl) rfl
        (fun _ _ _ hp => by cases hp), { hclose with },
        fun _ => Nat.zero_le _⟩
    · cases hstep
  | finished =>
    simp only [receiverStep] at hstep
    split at hstep
    · rename_i stopping hphase
      cases hstep
      cases stopping with
      | true | false =>
        exact ⟨h.frame ⟨rfl, rfl, rfl⟩ (by rw [hphase]; rfl) rfl (fun _ _ _ hp => by cases hp),
          { hsound with }, fun _ => Nat.zero_le _⟩
    · cases hstep
  | recv chunk =>
    simp only [receiverStep] at hstep
    split at hstep
    · rename_i hphase
      cases hstep
      refine ⟨h.frame ⟨rfl, rfl, rfl⟩ (by rw [hphase]; rfl) rfl (fun _ _ _ hp => ?_),
        { hsound with }, fun hne => absurd rfl (hne chunk)⟩
      exact (Phase.parsing.inj hp).2.1.symm
    · cases hstep
  | parse handling =>
    simp only [receiverStep] at hstep
    split at hstep
    · rename_i chunk processed messages hphase
      by_cases hmore : processed < chunk.length
      · rw [if_pos hmore] at hstep
        cases hstep
        obtain ⟨hparsing, hsound', hleft⟩ :=
          parseStep_parsing h hsound hrunning hphase hmore handling
        exact ⟨hparsing, hsound', fun _ => hleft.le⟩
      · rw [if_neg hmore] at hstep
        cases hstep
    · cases hstep
  | parsed =>
    simp only [receiverStep] at hstep
    split at hstep
    · rename_i chunk processed messages hphase
      by_cases hmore : processed < chunk.length
      · rw [if_pos hmore] at hstep
        cases hstep
      · rw [if_neg hmore] at hstep
        cases hstep
        obtain ⟨-, htake, hmessages⟩ := h.chunk chunk processed messages hphase
        have hlog := h.log
        rw [hphase] at hlog
        refine ⟨⟨h.overread, fun _ _ _ hp => (by cases hp), fun p hp => ?_, ?_⟩,
          { hsound with }, fun _ => Nat.zero_le _⟩
        · obtain hp | hp := List.mem_append.mp hp
          · exact h.parsed p hp
          · rw [List.mem_singleton.mp hp]
            refine ⟨?_, hmessages, malformed_nil⟩
            show chunk = (messages.map Message.bytes).flatten ++ []
            rw [List.append_nil, ← htake, List.take_of_length_le (by omega)]
        · show s.log.map Entry.item =
            (s.parsed ++ [(⟨chunk, messages, []⟩ : ParsedChunk)]).flatMap ParsedChunk.items ++ []
          rw [hlog, List.flatMap_append, List.flatMap_singleton, List.append_nil, ParsedChunk.items,
            if_pos rfl, List.append_nil]
          rfl
    · cases hstep
  | flush launchId io | disable launchId io =>
    simp only [receiverStep] at hstep
    split at hstep
    · rename_i c hphase hcapture
      cases hstep
      exact ⟨h.other ⟨rfl, rfl, rfl, rfl⟩, hsound.call hrunning hcapture rfl rfl, fun _ => le_rfl⟩
    · cases hstep
  | again =>
    simp only [receiverStep] at hstep
    split at hstep
    · rename_i hphase
      cases hstep
      exact ⟨h.frame ⟨rfl, rfl, rfl⟩ (by rw [hphase]; rfl) rfl (fun _ _ _ hp => by cases hp),
        { hsound with }, fun _ => Nat.zero_le _⟩
    · cases hstep
  | close launchId plan io synced footer =>
    simp only [receiverStep] at hstep
    split at hstep
    · rename_i hphase
      cases hstep
      have hclose := hsound.closeCapture hrunning launchId false false (finishedTrace_quiet plan)
        (fun _ => .inl rfl) io synced footer
      have hsame := @closeCapture_same dump launchId ((plan.map FinishedTrace.calls).getD [] ++
        [.finish launchId false false io synced footer]) s
      obtain ⟨hlog, hparsed, hoverread, hphase'⟩ := hsame
      refine ⟨h.other ⟨hoverread, hlog, hparsed, hphase'⟩, hclose, fun _ => ?_⟩
      rw [State.left, State.left, hphase']
    · cases hstep

theorem step_keeps (h : Parsing s) (hsound : Sound dump s) {action : Action}
    (hstep : step dump action s = some s') :
    Parsing s' ∧ Sound dump s' ∧ ((∀ chunk, action ≠ .recv chunk) → s'.left ≤ s.left) := by
  have hreceiver (hstep : (if s.hung then none else receiverStep dump action s) = some s') :
      Parsing s' ∧ Sound dump s' ∧ ((∀ chunk, action ≠ .recv chunk) → s'.left ≤ s.left) := by
    cases hhung : s.hung with
    | true => rw [hhung] at hstep; cases hstep
    | false =>
      rw [hhung] at hstep
      exact receiverStep_keeps h hsound hhung hstep
  cases action with
  | launch launchId opened bufferThreshold metadata graph =>
    cases hstep
    exact ⟨h.other ⟨rfl, rfl, rfl, rfl⟩, hsound.createTraceWriter _ _ _ _ _, fun _ => le_rfl⟩
  | request _ | requestGraphCompletion _ _ _ | wait =>
    cases hstep
    exact ⟨h.other ⟨rfl, rfl, rfl, rfl⟩, { hsound with },
      fun _ => le_rfl⟩
  | failChannel =>
    cases hstep
    exact ⟨h.other ⟨rfl, rfl, rfl, rfl⟩,
      ⟨fun launchId c hc => (hsound.captures launchId c hc).fail, hsound.running, hsound.closed⟩,
      fun _ => le_rfl⟩
  | take _ | finish _ _ _ _ | finished | recv _ | parse _ | parsed | flush _ _ | disable _ _ | again
  | close _ _ _ _ _ => exact hreceiver hstep

theorem run_keeps (h : Parsing s) (hsound : Sound dump s) {actions : List Action}
    (hrun : run dump actions s = some s') : Parsing s' ∧ Sound dump s' := by
  induction actions generalizing s with
  | nil =>
    cases hrun
    exact ⟨h, hsound⟩
  | cons action actions ih =>
    obtain ⟨s₁, hstep, hrest⟩ := Option.bind_eq_some_iff.mp hrun
    obtain ⟨hparsing, hsound', -⟩ := step_keeps h hsound hstep
    exact ih hparsing hsound' hrest

/-- A chunk that still has bytes is parsed further, whatever the host adds. -/
theorem parse_goes_on (h : Parsing s) (hsound : Sound dump s) (hrunning : s.hung = false)
    (hleft : s.left ≠ 0) (handling : Handling) :
    ∃ s', step dump (.parse handling) s = some s' ∧ s'.left < s.left := by
  cases hphase : s.phase with
  | parsing chunk processed messages =>
    have hbytes : s.left = chunk.length - processed := by rw [State.left, hphase]
    have hmore : processed < chunk.length := by omega
    refine ⟨parseStep dump chunk processed messages handling s, ?_,
      (parseStep_parsing h hsound hrunning hphase hmore handling).2.2⟩
    show (if s.hung then none else receiverStep dump (.parse handling) s) = _
    rw [hrunning, if_neg Bool.false_ne_true]
    simp only [receiverStep, hphase, if_pos hmore]
  | boundary | finishing _ _ | receiving | between | ending =>
    exact absurd (by rw [State.left, hphase]) hleft

/-- In every run no read goes past the end of a chunk, and every chunk is parsed to its end
or to the first bytes that are no message: a step of the loop is possible while bytes are
left and leaves fewer, and no other step but a new chunk leaves more. Each message before
is handed once, in order, to the writer of its launch where that is open. A capture whose
closing line calls it complete holds the record of every message of its launch that was
parsed while it was open, and nothing was left unparsed meanwhile. -/
theorem run_loses_nothing (dump : Completion → List Byte) (actions : List Action) (s : State)
    (h : run dump actions {} = some s) :
    s.overread = false ∧
    (s.hung = false → s.left ≠ 0 → ∀ handling,
      ∃ s', step dump (.parse handling) s = some s' ∧ s'.left < s.left) ∧
    (∀ action s', (∀ chunk, action ≠ .recv chunk) → step dump action s = some s' →
      s'.left ≤ s.left) ∧
    (∀ p ∈ s.parsed, p.bytes = (p.messages.map Message.bytes).flatten ++ p.rest ∧
      (∀ m ∈ p.messages, m.WellFormed) ∧ Malformed p.rest) ∧
    s.log.map Entry.item =
      s.parsed.flatMap ParsedChunk.items ++ s.phase.messages.map Item.message ∧
    (∀ launchId c, s.captures launchId = some c →
      c.received = (owned launchId (s.log.drop c.openedAt)).map Prod.fst) ∧
    ∀ k ∈ s.closed, k.capture.received = (owned k.launchId (k.span s.log)).map Prod.fst ∧
      ∀ line, Line.completion line ∈ k.capture.writer.lines → line.complete = true →
        Whole (k.span s.log) ∧
        (owned k.launchId (k.span s.log)).map Prod.snd =
          (records k.capture.writer.lines).map some ∧
        line.traceRecordsWritten = (owned k.launchId (k.span s.log)).length := by
  obtain ⟨hparsing, hsound⟩ := run_keeps parsing_start sound_start h
  refine ⟨hparsing.overread, fun hrunning hleft => parse_goes_on hparsing hsound hrunning hleft,
    fun action s' hrecv hstep => (step_keeps hparsing hsound hstep).2.2 hrecv,
    fun p hp => ?_, hparsing.log, fun launchId c hc => (hsound.captures launchId c hc).received,
    fun k hk => ?_⟩
  · have hright := hparsing.parsed p hp
    exact ⟨hright.bytes, hright.wellFormed, hright.malformed⟩
  · have htold := hsound.closed k hk
    exact ⟨htold.received, htold.complete⟩

end

def sampleMessage : List Byte := [2, 0, 0, 0, 0, 0, 0, 0, 5] ++ List.replicate 47 0

def sampleHandling : Handling where
  identified := true
  serialize := fun index => some [UInt8.ofNat (65 + index)]
  io := []
  consumed := .threw ""

/-- A launch whose two messages come in one chunk, and its completion. -/
def sampleActions : List Action :=
  [.launch 5 true 100 [[77]] false, .take false, .finished, .recv (sampleMessage ++ sampleMessage),
    .parse sampleHandling, .parse sampleHandling, .parsed, .request ⟨5, true, true, ""⟩, .again,
    .take false, .finish none [.wrote 6] true [.wrote 5], .finished]

def sampleEnd : State := (run Writer.sampleDump sampleActions {}).getD {}

theorem run_loses_nothing_small :
    sampleEnd.closed.map (fun k => records k.capture.writer.lines) = [[[65], [66]]] ∧
      ∀ k ∈ sampleEnd.closed,
        k.capture.received = (owned k.launchId (k.span sampleEnd.log)).map Prod.fst := by
  have hsome : (run Writer.sampleDump sampleActions {}).isSome = true := by decide +kernel
  have hrun : run Writer.sampleDump sampleActions {} = some sampleEnd := by
    rw [sampleEnd, ← Option.some_get hsome, Option.getD_some]
  obtain ⟨-, -, -, -, -, -, hclosed⟩ :=
    run_loses_nothing Writer.sampleDump sampleActions sampleEnd hrun
  exact ⟨by decide +kernel, fun k hk => (hclosed k hk).1⟩

end CuTracer.Capture.Receiver
