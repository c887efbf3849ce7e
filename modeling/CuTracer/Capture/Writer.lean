import Mathlib.Data.Finset.Basic

/-! The writer of one launch's NDJSON trace. Lines are appended to a buffer and written in
batches; a batch that is not written in full disables the writer, and `finish` closes the
file with a line that says whether the capture is complete. The record counters and the
error set are only right if every path that refuses or loses a record updates them. -/

namespace CuTracer.Capture.Writer

abbrev Byte := UInt8

def newline : Byte := 10

/-! ### Lines -/

structure Completion where
  gridLaunchId : ℕ
  kernelCompleted : Bool
  channelDrained : Bool
  traceRecordsWritten : ℕ
  droppedRecords : ℕ
  errors : Finset String
  deriving DecidableEq

/-- `status` is "complete". -/
def Completion.complete (c : Completion) : Bool := c.errors = ∅ ∧ c.droppedRecords = 0

/-- A line of the file, by what appended it. -/
inductive Line where
  | metadata (text : List Byte)
  | record (text : List Byte)
  | completion (c : Completion)

def Line.record? : Line → Option (List Byte)
  | .record text => some text
  | _ => none

/-- The bytes of a line; `dump` is the JSON text of a completion. -/
def Line.text (dump : Completion → List Byte) : Line → List Byte
  | .metadata text => text
  | .record text => text
  | .completion c => dump c

def Line.bytes (dump : Completion → List Byte) (line : Line) : List Byte :=
  line.text dump ++ [newline]

def bytes (dump : Completion → List Byte) (lines : List Line) : List Byte :=
  lines.flatMap (Line.bytes dump)

def records (lines : List Line) : List (List Byte) := lines.filterMap Line.record?

/-! ### The writer -/

/-- What one call of `write` does: it takes some bytes, none for a full disk. -/
inductive WriteResult where
  | wrote (n : ℕ)
  | interrupted
  | failed

/-- The bytes that reached the file, and what `write_data` returned if it did. -/
structure Written where
  landed : List Byte
  result : Option Bool

/-- `write_data`; where the results end before the data, the last call has not returned. -/
def writeData : List WriteResult → List Byte → Written
  | _, [] => ⟨[], some true⟩
  | [], _ => ⟨[], none⟩
  | .interrupted :: results, data => writeData results data
  | .failed :: _, _ => ⟨[], some false⟩
  | .wrote n :: results, data =>
    if n = 0 then ⟨[], some false⟩
    else
      let rest := writeData results (data.drop n)
      ⟨data.take n ++ rest.landed, rest.result⟩

/-- The fields of the writer, its file, and at the end what happened so far: the records
that were offered before `finish` (`none` for one that does not serialize), how many were
only reported as dropped, the lines in the buffer and those of the batches behind it, and
whether a `write` has not returned. -/
structure TraceWriter where
  opened : Bool
  bufferThreshold : ℕ
  jsonBuffer : List Byte := []
  enabled : Bool
  acceptingRecords : Bool := true
  finished : Bool := false
  bufferedTraceRecords : ℕ := 0
  traceRecordsWritten : ℕ := 0
  droppedRecords : ℕ := 0
  captureErrors : Finset String := ∅
  file : List Byte := []
  offered : List (Option (List Byte)) := []
  reported : ℕ := 0
  pending : List Line := []
  flushed : List Line := []
  stuck : Bool := false

/-- The constructor, which disables a writer whose file does not open. -/
def TraceWriter.create (opened : Bool) (bufferThreshold : ℕ) : TraceWriter :=
  { opened, bufferThreshold, enabled := opened }

namespace TraceWriter

def isEnabled (w : TraceWriter) : Bool := w.enabled && w.acceptingRecords

def lines (w : TraceWriter) : List Line := w.flushed ++ w.pending

def addError (reason : String) (w : TraceWriter) : TraceWriter :=
  { w with captureErrors := insert reason w.captureErrors }

def drop (w : TraceWriter) : TraceWriter := { w with droppedRecords := w.droppedRecords + 1 }

/-- A record is offered; after `finish` it does not count. -/
def offer (text : Option (List Byte)) (w : TraceWriter) : TraceWriter :=
  if w.finished then w else { w with offered := w.offered ++ [text] }

def finishBufferWrite (success : Bool) (w : TraceWriter) : TraceWriter :=
  let w :=
    if success then
      { w with traceRecordsWritten := w.traceRecordsWritten + w.bufferedTraceRecords }
    else
      { w.addError "record_write_failed" with
        droppedRecords := w.droppedRecords + w.bufferedTraceRecords
        enabled := false }
  { w with
    bufferedTraceRecords := 0
    jsonBuffer := []
    flushed := w.flushed ++ w.pending
    pending := [] }

/-- `write_uncompressed`, which is `flush_locked` in this mode. -/
def flushLocked (io : List WriteResult) (w : TraceWriter) : TraceWriter :=
  if w.jsonBuffer = [] ∨ w.enabled = false then w
  else if w.opened = false then w.finishBufferWrite false
  else
    let written := writeData io w.jsonBuffer
    let w := { w with file := w.file ++ written.landed }
    match written.result with
    | some success => w.finishBufferWrite success
    | none => { w with stuck := true }

def append (dump : Completion → List Byte) (line : Line) (w : TraceWriter) : TraceWriter :=
  { w with
    jsonBuffer := w.jsonBuffer ++ line.bytes dump
    pending := w.pending ++ [line] }

def flushFull (io : List WriteResult) (w : TraceWriter) : TraceWriter :=
  if w.bufferThreshold ≤ w.jsonBuffer.length then w.flushLocked io else w

def bufferRecord (dump : Completion → List Byte) (text : List Byte) (io : List WriteResult)
    (w : TraceWriter) : TraceWriter :=
  { w.append dump (.record text) with
    bufferedTraceRecords := w.bufferedTraceRecords + 1 }.flushFull io

def writeMetadata (dump : Completion → List Byte) (text : List Byte) (w : TraceWriter) :
    TraceWriter :=
  if w.isEnabled = false ∨ w.finished = true then w else w.append dump (.metadata text)

def writeEncodedRecord (dump : Completion → List Byte) (text : List Byte) (io : List WriteResult)
    (w : TraceWriter) : TraceWriter :=
  let w := w.offer (some text)
  if w.finished = true ∨ w.isEnabled = false then w.drop.addError "record_write_rejected"
  else w.bufferRecord dump text io

/-- `write_json_format`; the text is `none` where the record does not serialize. -/
def writeJsonFormat (dump : Completion → List Byte) (text : Option (List Byte))
    (io : List WriteResult) (w : TraceWriter) : TraceWriter :=
  match text with
  | none => ((w.addError "serialization_failed").addError "record_write_failed").drop
  | some text => w.bufferRecord dump text io

def writeTrace (dump : Completion → List Byte) (text : Option (List Byte)) (identified : Bool)
    (io : List WriteResult) (w : TraceWriter) : TraceWriter :=
  let w := w.offer text
  if w.finished then w
  else if w.isEnabled = false then w.drop
  else
    (if identified then w else w.addError "missing_instruction_identity").writeJsonFormat dump text io

def disable (io : List WriteResult) (w : TraceWriter) : TraceWriter :=
  let w := (w.addError "trace_disabled").flushLocked io
  if w.stuck then w else { w with acceptingRecords := false }

def markCaptureError (reason : String) (droppedRecord : Bool) (w : TraceWriter) : TraceWriter :=
  let w := w.addError reason
  if droppedRecord then
    { w.drop with reported := if w.finished then w.reported else w.reported + 1 }
  else w

/-- The errors that `finish` adds after the buffer was flushed. -/
def finishErrors (synced kernelCompleted channelDrained : Bool) (w : TraceWriter) : TraceWriter :=
  let w := if synced then w else { w.addError "data_sync_failed" with enabled := false }
  let w := if kernelCompleted then w else w.addError "kernel_completion_unverified"
  let w := if channelDrained then w else w.addError "channel_drain_unverified"
  { w with finished := true, acceptingRecords := false }

/-- The line that closes the file. -/
def completion (launchId : ℕ) (kernelCompleted channelDrained : Bool) (w : TraceWriter) :
    Completion where
  gridLaunchId := launchId
  kernelCompleted := kernelCompleted
  channelDrained := channelDrained
  traceRecordsWritten := w.traceRecordsWritten
  droppedRecords := w.droppedRecords
  errors := w.captureErrors

/-- `finish`; a file that is not open has nothing to sync. -/
def finish (dump : Completion → List Byte) (launchId : ℕ) (kernelCompleted channelDrained : Bool)
    (io : List WriteResult) (synced : Bool) (footer : List WriteResult) (w : TraceWriter) :
    TraceWriter :=
  if w.finished then w
  else
    let w := w.flushLocked io
    if w.stuck then w
    else
      let w := w.finishErrors (synced || !w.opened) kernelCompleted channelDrained
      if w.enabled = false then w
      else (w.append dump (.completion (w.completion launchId kernelCompleted channelDrained))).flushLocked
        footer

end TraceWriter

/-! ### Calls -/

/-- A call with what the file system does during it. -/
inductive Call where
  | writeMetadata (text : List Byte)
  | writeEncodedRecord (text : List Byte) (io : List WriteResult)
  | writeTrace (text : Option (List Byte)) (identified : Bool) (io : List WriteResult)
  | flush (io : List WriteResult)
  | disable (io : List WriteResult)
  | markCaptureError (reason : String) (droppedRecord : Bool)
  | finish (launchId : ℕ) (kernelCompleted channelDrained : Bool) (io : List WriteResult)
      (synced : Bool) (footer : List WriteResult)

section

variable (dump : Completion → List Byte)

/-- No call gets past one that has not returned. -/
def step (w : TraceWriter) (call : Call) : TraceWriter :=
  if w.stuck then w
  else match call with
  | .writeMetadata text => w.writeMetadata dump text
  | .writeEncodedRecord text io => w.writeEncodedRecord dump text io
  | .writeTrace text identified io => w.writeTrace dump text identified io
  | .flush io => w.flushLocked io
  | .disable io => w.disable io
  | .markCaptureError reason droppedRecord => w.markCaptureError reason droppedRecord
  | .finish launchId kernelCompleted channelDrained io synced footer =>
    w.finish dump launchId kernelCompleted channelDrained io synced footer

def run (w : TraceWriter) (calls : List Call) : TraceWriter := calls.foldl (step dump) w

end

/-! ### Lists of lines -/

section

variable {dump : Completion → List Byte} {w : TraceWriter}

@[simp] theorem records_nil : records [] = [] := rfl

@[simp] theorem records_append (ls ms : List Line) : records (ls ++ ms) = records ls ++ records ms :=
  List.filterMap_append

@[simp] theorem records_metadata (text : List Byte) : records [.metadata text] = [] := rfl

@[simp] theorem records_record (text : List Byte) : records [.record text] = [text] := rfl

@[simp] theorem bytes_nil : bytes dump [] = [] := rfl

@[simp] theorem bytes_append (ls ms : List Line) :
    bytes dump (ls ++ ms) = bytes dump ls ++ bytes dump ms := List.flatMap_append

@[simp] theorem bytes_singleton (l : Line) : bytes dump [l] = l.bytes dump := by simp [bytes]

theorem bytes_eq_nil {ls : List Line} : bytes dump ls = [] ↔ ls = [] := by
  cases ls with
  | nil => simp
  | cons l ls => simp [bytes, Line.bytes]

def NoFooter (ls : List Line) : Prop := ∀ c, Line.completion c ∉ ls

/-! ### Writing -/

theorem landed_prefix (io : List WriteResult) (data : List Byte) :
    (writeData io data).landed <+: data := by
  induction io generalizing data with
  | nil => cases data <;> exact List.nil_prefix
  | cons r io ih =>
    cases data with
    | nil => exact List.nil_prefix
    | cons b data =>
      cases r with
      | interrupted => exact ih (b :: data)
      | failed => exact List.nil_prefix
      | wrote n =>
        unfold writeData
        by_cases hn : n = 0
        · rw [if_pos hn]
          exact List.nil_prefix
        · rw [if_neg hn]
          obtain ⟨rest, hrest⟩ := ih ((b :: data).drop n)
          refine ⟨rest, ?_⟩
          rw [List.append_assoc, hrest, List.take_append_drop]

/-- `write_data` succeeds only where all of the data reached the file. -/
theorem landed_of_success (io : List WriteResult) (data : List Byte)
    (h : (writeData io data).result = some true) : (writeData io data).landed = data := by
  induction io generalizing data with
  | nil =>
    cases data with
    | nil => rfl
    | cons b data => cases h
  | cons r io ih =>
    cases data with
    | nil => rfl
    | cons b data =>
      cases r with
      | interrupted => exact ih (b :: data) h
      | failed => cases h
      | wrote n =>
        unfold writeData at h ⊢
        by_cases hn : n = 0
        · rw [if_pos hn] at h
          cases h
        · rw [if_neg hn] at h ⊢
          show (b :: data).take n ++ (writeData io ((b :: data).drop n)).landed = b :: data
          rw [ih _ h, List.take_append_drop]

/-- What a flush does: nothing, or it ends the batch in the buffer, or hangs in it. -/
inductive Flushed (w : TraceWriter) : TraceWriter → Prop where
  | idle (h : w.jsonBuffer = [] ∨ w.enabled = false) : Flushed w w
  | batch (henabled : w.enabled = true) :
      Flushed w ({ w with file := w.file ++ w.jsonBuffer }.finishBufferWrite true)
  | broken (henabled : w.enabled = true) {landed : List Byte} (h : landed <+: w.jsonBuffer) :
      Flushed w ({ w with file := w.file ++ landed }.finishBufferWrite false)
  | hung (henabled : w.enabled = true) {landed : List Byte} (h : landed <+: w.jsonBuffer) :
      Flushed w { w with file := w.file ++ landed, stuck := true }

theorem flushLocked_flushed (io : List WriteResult) (w : TraceWriter) :
    Flushed w (w.flushLocked io) := by
  unfold TraceWriter.flushLocked
  by_cases hidle : w.jsonBuffer = [] ∨ w.enabled = false
  · rw [if_pos hidle]
    exact .idle hidle
  rw [if_neg hidle]
  have henabled : w.enabled = true := by
    rw [not_or, Bool.not_eq_false] at hidle
    exact hidle.2
  by_cases hopened : w.opened = false
  · rw [if_pos hopened]
    have hsame : { w with file := w.file ++ [] } = w := by rw [List.append_nil]
    have hbroken : Flushed w ({ w with file := w.file ++ [] }.finishBufferWrite false) :=
      .broken henabled List.nil_prefix
    rwa [hsame] at hbroken
  rw [if_neg hopened]
  have hhead := landed_prefix io w.jsonBuffer
  cases hresult : (writeData io w.jsonBuffer).result with
  | none =>
    simp only [hresult]
    exact .hung henabled hhead
  | some success =>
    simp only [hresult]
    cases success with
    | true =>
      rw [landed_of_success io w.jsonBuffer hresult]
      exact .batch henabled
    | false => exact .broken henabled hhead

/-! ### Before `finish` -/

/-- The buffer holds the lines behind the last batch, every offered record is accounted
for, and while nothing was dropped the records are the offered ones. -/
structure Open (dump : Completion → List Byte) (w : TraceWriter) : Prop where
  unfinished : w.finished = false
  noFooter : NoFooter w.lines
  buffer : w.jsonBuffer = bytes dump w.pending
  buffered : w.bufferedTraceRecords = (records w.pending).length
  written : w.enabled = true → w.traceRecordsWritten = (records w.flushed).length
  account : w.offered.length + w.reported =
    w.traceRecordsWritten + w.droppedRecords + w.bufferedTraceRecords
  offered : w.droppedRecords = 0 → w.offered = (records w.lines).map some
  file : w.file <+: bytes dump w.lines
  whole : w.enabled = true → w.stuck = false → w.file = bytes dump w.flushed

theorem open_create (opened : Bool) (threshold : ℕ) : Open dump (.create opened threshold) where
  unfinished := rfl
  noFooter := fun c hc => by cases hc
  buffer := rfl
  buffered := rfl
  written := fun _ => rfl
  account := rfl
  offered := fun _ => rfl
  file := List.nil_prefix
  whole := fun _ _ => rfl

variable (h : Open dump w)

include h in
theorem Open.addError (reason : String) : Open dump (w.addError reason) :=
  { h with }

theorem offer_unfinished (h : w.finished = false) (text : Option (List Byte)) :
    w.offer text = { w with offered := w.offered ++ [text] } :=
  if_neg (by rw [h]; exact Bool.false_ne_true)

include h in
theorem Open.refuse (text : Option (List Byte)) : Open dump (w.offer text).drop := by
  rw [offer_unfinished h.unfinished]
  refine ⟨h.unfinished, h.noFooter, h.buffer, h.buffered, h.written, ?_, ?_, h.file, h.whole⟩
  · have := h.account
    simp only [TraceWriter.drop, List.length_append, List.length_singleton]
    omega
  · intro hzero
    cases hzero

include h in
theorem Open.markCaptureError (reason : String) (droppedRecord : Bool) :
    Open dump (w.markCaptureError reason droppedRecord) := by
  cases droppedRecord with
  | false => exact h.addError reason
  | true =>
    refine ⟨h.unfinished, h.noFooter, h.buffer, h.buffered, h.written, ?_, ?_, h.file, h.whole⟩
    · have := h.account
      have hunfinished := h.unfinished
      simp only [TraceWriter.markCaptureError, TraceWriter.addError, TraceWriter.drop, hunfinished,
        if_true, Bool.false_eq_true, if_false]
      omega
    · intro hzero
      cases hzero

theorem NoFooter.append {ls : List Line} (h : NoFooter ls) {l : Line}
    (hl : ∀ c, l ≠ .completion c) : NoFooter (ls ++ [l]) := by
  intro c hc
  obtain hc | hc := List.mem_append.mp hc
  · exact h c hc
  · exact hl c (List.mem_singleton.mp hc).symm

theorem lines_append (l : Line) : (w.append dump l).lines = w.lines ++ [l] := by
  simp [TraceWriter.lines, TraceWriter.append]

include h in
theorem Open.appendMetadata (text : List Byte) :
    Open dump (w.append dump (.metadata text)) where
  unfinished := h.unfinished
  noFooter := by
    rw [lines_append]
    exact h.noFooter.append fun c hc => by cases hc
  buffer := by simp [TraceWriter.append, h.buffer]
  buffered := by
    simp only [TraceWriter.append, records_append, records_metadata, List.append_nil]
    exact h.buffered
  written := h.written
  account := h.account
  offered := fun hzero => by
    rw [lines_append, records_append, records_metadata, List.append_nil]
    exact h.offered hzero
  file := by
    rw [lines_append, bytes_append]
    exact h.file.trans (List.prefix_append _ _)
  whole := h.whole

include h in
theorem Open.accept (text : List Byte) :
    Open dump { (w.offer (some text)).append dump (.record text) with
      bufferedTraceRecords := w.bufferedTraceRecords + 1 } := by
  rw [offer_unfinished h.unfinished]
  have hlines : w.flushed ++ (w.pending ++ [.record text]) = w.lines ++ [.record text] := by
    rw [TraceWriter.lines, List.append_assoc]
  constructor
  · exact h.unfinished
  · show NoFooter (w.flushed ++ (w.pending ++ [.record text]))
    rw [hlines]
    exact h.noFooter.append fun c hc => by cases hc
  · simp [TraceWriter.append, h.buffer]
  · simp [TraceWriter.append, h.buffered]
  · exact h.written
  · have := h.account
    simp only [TraceWriter.append, List.length_append, List.length_singleton]
    omega
  · intro hzero
    show w.offered ++ [some text] =
      (records (w.flushed ++ (w.pending ++ [.record text]))).map some
    rw [hlines, records_append, List.map_append, h.offered hzero]
    rfl
  · show w.file <+: bytes dump (w.flushed ++ (w.pending ++ [.record text]))
    rw [hlines, bytes_append]
    exact h.file.trans (List.prefix_append _ _)
  · exact h.whole

include h in
/-- The end of a batch, whether it succeeded or not, and the bytes of it that landed. -/
theorem Open.finishBufferWrite (henabled : w.enabled = true) (hstuck : w.stuck = false)
    (success : Bool) {landed : List Byte} (hlanded : landed <+: w.jsonBuffer)
    (hall : success = true → landed = w.jsonBuffer) :
    Open dump ({ w with file := w.file ++ landed }.finishBufferWrite success) := by
  have hlines : (w.flushed ++ w.pending) ++ [] = w.lines := List.append_nil _
  have hwritten := h.written henabled
  have haccount := h.account
  have hfile : w.file ++ landed <+: bytes dump w.lines := by
    rw [TraceWriter.lines, bytes_append, ← h.whole henabled hstuck, ← h.buffer]
    exact (List.prefix_append_right_inj _).mpr hlanded
  cases success with
  | true =>
    refine ⟨h.unfinished, ?_, rfl, rfl, ?_, ?_, ?_, ?_, ?_⟩
    · show NoFooter ((w.flushed ++ w.pending) ++ [])
      rw [hlines]
      exact h.noFooter
    · intro _
      show w.traceRecordsWritten + w.bufferedTraceRecords = (records (w.flushed ++ w.pending)).length
      rw [hwritten, h.buffered, records_append, List.length_append]
    · show w.offered.length + w.reported =
        w.traceRecordsWritten + w.bufferedTraceRecords + w.droppedRecords + 0
      omega
    · intro hzero
      show w.offered = (records ((w.flushed ++ w.pending) ++ [])).map some
      rw [hlines]
      exact h.offered hzero
    · show w.file ++ landed <+: bytes dump ((w.flushed ++ w.pending) ++ [])
      rw [hlines]
      exact hfile
    · intro _ _
      show w.file ++ landed = bytes dump (w.flushed ++ w.pending)
      rw [hall rfl, h.whole henabled hstuck, h.buffer, bytes_append]
  | false =>
    refine ⟨h.unfinished, ?_, rfl, rfl, ?_, ?_, ?_, ?_, ?_⟩
    · show NoFooter ((w.flushed ++ w.pending) ++ [])
      rw [hlines]
      exact h.noFooter
    · intro hdisabled
      cases hdisabled
    · show w.offered.length + w.reported =
        w.traceRecordsWritten + (w.droppedRecords + w.bufferedTraceRecords) + 0
      omega
    · intro hzero
      show w.offered = (records ((w.flushed ++ w.pending) ++ [])).map some
      rw [hlines]
      apply h.offered
      have hsum : w.droppedRecords + w.bufferedTraceRecords = 0 := hzero
      omega
    · show w.file ++ landed <+: bytes dump ((w.flushed ++ w.pending) ++ [])
      rw [hlines]
      exact hfile
    · intro hdisabled
      cases hdisabled

include h in
theorem Open.flushLocked (hstuck : w.stuck = false) (io : List WriteResult) :
    Open dump (w.flushLocked io) := by
  generalize hflush : w.flushLocked io = w'
  have hflushed : Flushed w w' := hflush ▸ flushLocked_flushed io w
  cases hflushed with
  | idle _ => exact h
  | batch henabled =>
    exact h.finishBufferWrite henabled hstuck true (List.prefix_refl _) fun _ => rfl
  | broken henabled hlanded =>
    exact h.finishBufferWrite henabled hstuck false hlanded fun hf => by cases hf
  | hung henabled hlanded =>
    refine ⟨h.unfinished, h.noFooter, h.buffer, h.buffered, h.written, h.account, h.offered, ?_, ?_⟩
    · show w.file ++ _ <+: bytes dump w.lines
      rw [TraceWriter.lines, bytes_append, ← h.whole henabled hstuck, ← h.buffer]
      exact (List.prefix_append_right_inj _).mpr hlanded
    · intro _ hno
      cases hno

include h in
/-- After a flush that returned, an enabled writer has nothing left to write. -/
theorem Open.pending_flushLocked (hstuck : w.stuck = false) (io : List WriteResult)
    (hreturned : (w.flushLocked io).stuck = false) (henabled : (w.flushLocked io).enabled = true) :
    (w.flushLocked io).pending = [] := by
  have hafter := h.flushLocked hstuck io
  revert hreturned henabled hafter
  generalize hflush : w.flushLocked io = w'
  have hflushed : Flushed w w' := hflush ▸ flushLocked_flushed io w
  intro hreturned henabled hafter
  cases hflushed with
  | idle hidle =>
    obtain hempty | hdisabled := hidle
    · rw [h.buffer] at hempty
      exact bytes_eq_nil.mp hempty
    · rw [hdisabled] at henabled
      cases henabled
  | batch _ => rfl
  | broken _ _ => rfl
  | hung _ _ => cases hreturned

/-! ### After `finish` -/

/-- Where a line closes the file it is the last one, and what it says is true. -/
def Truthful (lines : List Line) (offered : List (Option (List Byte))) : Prop :=
  NoFooter lines ∨ ∃ pre c, lines = pre ++ [.completion c] ∧ NoFooter pre ∧
    (c.complete = true → offered = (records pre).map some ∧ c.traceRecordsWritten = offered.length)

structure Closed (dump : Completion → List Byte) (w : TraceWriter) : Prop where
  finished : w.finished = true
  idle : w.stuck = false → w.jsonBuffer = [] ∨ w.enabled = false
  truthful : Truthful w.lines w.offered
  file : w.file <+: bytes dump w.lines

/-- The last flush of `finish`. -/
theorem closed_flushLocked (hfinished : w.finished = true)
    (hbuffer : w.jsonBuffer = bytes dump w.pending) (htruthful : Truthful w.lines w.offered)
    (hwhole : w.file = bytes dump w.flushed) (io : List WriteResult) :
    Closed dump (w.flushLocked io) := by
  have hlines : (w.flushed ++ w.pending) ++ [] = w.lines := List.append_nil _
  have hfile {landed : List Byte} (hlanded : landed <+: w.jsonBuffer) :
      w.file ++ landed <+: bytes dump w.lines := by
    rw [TraceWriter.lines, bytes_append, hwhole, ← hbuffer]
    exact (List.prefix_append_right_inj _).mpr hlanded
  generalize hflush : w.flushLocked io = w'
  have hflushed : Flushed w w' := hflush ▸ flushLocked_flushed io w
  cases hflushed with
  | idle hidle =>
    refine ⟨hfinished, fun _ => hidle, htruthful, ?_⟩
    rw [hwhole, TraceWriter.lines, bytes_append]
    exact List.prefix_append _ _
  | batch _ =>
    refine ⟨hfinished, fun _ => .inl rfl, ?_, ?_⟩
    · show Truthful ((w.flushed ++ w.pending) ++ []) w.offered
      rw [hlines]
      exact htruthful
    · show w.file ++ w.jsonBuffer <+: bytes dump ((w.flushed ++ w.pending) ++ [])
      rw [hlines]
      exact hfile (List.prefix_refl _)
  | broken _ hlanded =>
    refine ⟨hfinished, fun _ => .inl rfl, ?_, ?_⟩
    · show Truthful ((w.flushed ++ w.pending) ++ []) w.offered
      rw [hlines]
      exact htruthful
    · show w.file ++ _ <+: bytes dump ((w.flushed ++ w.pending) ++ [])
      rw [hlines]
      exact hfile hlanded
  | hung _ hlanded => exact ⟨hfinished, fun hno => (by cases hno), htruthful, hfile hlanded⟩

/-- What `finishErrors` leaves alone; the writer stays enabled only where the data was
synced. -/
theorem finishErrors_frame (synced completed drained : Bool) (w : TraceWriter) :
    let w' := w.finishErrors synced completed drained
    w'.finished = true ∧ w'.lines = w.lines ∧ w'.flushed = w.flushed ∧ w'.pending = w.pending ∧
      w'.jsonBuffer = w.jsonBuffer ∧ w'.file = w.file ∧ w'.offered = w.offered ∧
      w'.traceRecordsWritten = w.traceRecordsWritten ∧ w'.droppedRecords = w.droppedRecords ∧
      (w'.enabled = true → w.enabled = true) := by
  cases synced <;> cases completed <;> cases drained <;>
    simp [TraceWriter.finishErrors, TraceWriter.addError, TraceWriter.lines]

include h in
theorem Open.finish (hstuck : w.stuck = false) (launchId : ℕ) (completed drained : Bool)
    (io : List WriteResult) (synced : Bool) (footer : List WriteResult) :
    Open dump (w.finish dump launchId completed drained io synced footer) ∨
      Closed dump (w.finish dump launchId completed drained io synced footer) := by
  have hflush := h.flushLocked hstuck io
  have hpending := h.pending_flushLocked hstuck io
  unfold TraceWriter.finish
  rw [if_neg (by rw [h.unfinished]; exact Bool.false_ne_true)]
  generalize w.flushLocked io = w₁ at hflush hpending ⊢
  by_cases hhung : w₁.stuck = true
  · simp only [if_pos hhung]
    exact .inl hflush
  simp only [if_neg hhung]
  right
  rw [Bool.not_eq_true] at hhung
  obtain ⟨hfinished, hlines, hflushed, hpend, hbuffer, hfile, hoffered, hwritten, hdropped, henabled⟩ :=
    finishErrors_frame (synced || !w₁.opened) completed drained w₁
  generalize w₁.finishErrors (synced || !w₁.opened) completed drained = w₂ at *
  by_cases hdisabled : w₂.enabled = false
  · rw [if_pos hdisabled]
    refine ⟨hfinished, fun _ => .inr hdisabled, ?_, ?_⟩
    · rw [hlines]
      exact .inl hflush.noFooter
    · rw [hlines, hfile]
      exact hflush.file
  · rw [if_neg hdisabled]
    have hon : w₁.enabled = true := henabled (Bool.eq_true_of_not_eq_false hdisabled)
    have hempty : w₁.pending = [] := hpending hhung hon
    have hall : w₁.flushed = w₁.lines := by rw [TraceWriter.lines, hempty, List.append_nil]
    apply closed_flushLocked
    · exact hfinished
    · show w₂.jsonBuffer ++ _ = bytes dump (w₂.pending ++ [_])
      rw [hbuffer, hflush.buffer, hpend, bytes_append, bytes_singleton]
    · refine .inr ⟨w₂.lines, w₂.completion launchId completed drained, lines_append _, ?_, ?_⟩
      · rw [hlines]
        exact hflush.noFooter
      · intro hcomplete
        have hzero : w₁.droppedRecords = 0 := hdropped ▸ (of_decide_eq_true hcomplete).2
        have hrecords := hflush.offered hzero
        show w₂.offered = (records w₂.lines).map some ∧ w₂.traceRecordsWritten = w₂.offered.length
        rw [hoffered, hlines, hwritten, hflush.written hon, hall, hrecords, List.length_map]
        exact ⟨rfl, rfl⟩
    · show w₂.file = bytes dump w₂.flushed
      rw [hfile, hflushed]
      exact hflush.whole hon hhung

theorem Closed.flushLocked_eq (h : Closed dump w) (hstuck : w.stuck = false)
    (io : List WriteResult) : w.flushLocked io = w := if_pos (h.idle hstuck)

/-- A writer that is finished only changes its counters, its errors and whether it accepts
records. -/
theorem Closed.step (h : Closed dump w) (hstuck : w.stuck = false) (call : Call) :
    Closed dump (Writer.step dump w call) := by
  have hfinished := h.finished
  unfold Writer.step
  rw [if_neg (by rw [hstuck]; exact Bool.false_ne_true)]
  cases call with
  | writeMetadata text =>
    show Closed dump (w.writeMetadata dump text)
    rw [TraceWriter.writeMetadata, if_pos (.inr hfinished)]
    exact h
  | writeEncodedRecord text io =>
    show Closed dump (w.writeEncodedRecord dump text io)
    rw [TraceWriter.writeEncodedRecord, TraceWriter.offer, if_pos hfinished]
    simp only [hfinished, true_or, if_true]
    exact ⟨hfinished, h.idle, h.truthful, h.file⟩
  | writeTrace text identified io =>
    show Closed dump (w.writeTrace dump text identified io)
    rw [TraceWriter.writeTrace, TraceWriter.offer, if_pos hfinished]
    simp only [hfinished, if_true]
    exact h
  | flush io =>
    show Closed dump (w.flushLocked io)
    rw [h.flushLocked_eq hstuck]
    exact h
  | disable io =>
    have herror : Closed dump (w.addError "trace_disabled") :=
      ⟨hfinished, h.idle, h.truthful, h.file⟩
    have hreturned : ¬(w.addError "trace_disabled").stuck = true := by
      rw [Bool.not_eq_true]
      exact hstuck
    show Closed dump (w.disable io)
    rw [TraceWriter.disable, herror.flushLocked_eq hstuck]
    simp only [if_neg hreturned]
    exact ⟨hfinished, h.idle, h.truthful, h.file⟩
  | markCaptureError reason droppedRecord =>
    show Closed dump (w.markCaptureError reason droppedRecord)
    cases droppedRecord with
    | false => exact ⟨hfinished, h.idle, h.truthful, h.file⟩
    | true => exact ⟨hfinished, h.idle, h.truthful, h.file⟩
  | finish launchId completed drained io synced footer =>
    show Closed dump (w.finish dump launchId completed drained io synced footer)
    rw [TraceWriter.finish, if_pos hfinished]
    exact h

include h in
theorem Open.bufferRecord (hstuck : w.stuck = false) (text : List Byte) (io : List WriteResult) :
    Open dump ((w.offer (some text)).bufferRecord dump text io) := by
  have hcount : (w.offer (some text)).bufferedTraceRecords = w.bufferedTraceRecords := by
    rw [offer_unfinished h.unfinished]
  have haccept := h.accept text
  have hstuck' : (w.offer (some text)).stuck = false := by
    rw [offer_unfinished h.unfinished]
    exact hstuck
  unfold TraceWriter.bufferRecord TraceWriter.flushFull
  rw [hcount]
  split_ifs
  · exact haccept.flushLocked hstuck' io
  · exact haccept

include h in
theorem Open.writeJsonFormat (hstuck : w.stuck = false) (text : Option (List Byte))
    (io : List WriteResult) : Open dump ((w.offer text).writeJsonFormat dump text io) := by
  cases text with
  | none =>
    have herror := (h.addError "serialization_failed").addError "record_write_failed"
    have hrefuse := herror.refuse none
    rw [offer_unfinished herror.unfinished] at hrefuse
    rw [offer_unfinished h.unfinished]
    exact hrefuse
  | some text => exact h.bufferRecord hstuck text io

include h in
theorem Open.writeTrace (hstuck : w.stuck = false) (text : Option (List Byte)) (identified : Bool)
    (io : List WriteResult) : Open dump (w.writeTrace dump text identified io) := by
  have hoffer := offer_unfinished h.unfinished text
  have hunfinished : ¬(w.offer text).finished = true := by
    rw [hoffer, h.unfinished]
    exact Bool.false_ne_true
  unfold TraceWriter.writeTrace
  dsimp only
  rw [if_neg hunfinished]
  by_cases henabled : (w.offer text).isEnabled = false
  · rw [if_pos henabled]
    exact h.refuse text
  · rw [if_neg henabled]
    cases identified with
    | true => exact h.writeJsonFormat hstuck text io
    | false =>
      have herror := h.addError "missing_instruction_identity"
      have hcommute : (w.offer text).addError "missing_instruction_identity" =
          (w.addError "missing_instruction_identity").offer text := by
        rw [hoffer, offer_unfinished herror.unfinished]
        rfl
      rw [if_neg Bool.false_ne_true, hcommute]
      exact herror.writeJsonFormat hstuck text io

def Call.closes : Call → Bool
  | .finish _ _ _ _ _ _ => true
  | _ => false

include h in
theorem Open.step_open (hstuck : w.stuck = false) {call : Call} (hcall : call.closes = false) :
    Open dump (Writer.step dump w call) := by
  have hunfinished := h.unfinished
  unfold Writer.step
  rw [if_neg (by rw [hstuck]; exact Bool.false_ne_true)]
  cases call with
  | writeMetadata text =>
    show Open dump (w.writeMetadata dump text)
    unfold TraceWriter.writeMetadata
    split_ifs
    · exact h
    · exact h.appendMetadata text
  | writeEncodedRecord text io =>
    show Open dump (w.writeEncodedRecord dump text io)
    unfold TraceWriter.writeEncodedRecord
    dsimp only
    split_ifs
    · exact (h.refuse (some text)).addError _
    · exact h.bufferRecord hstuck text io
  | writeTrace text identified io => exact h.writeTrace hstuck text identified io
  | flush io => exact h.flushLocked hstuck io
  | disable io =>
    have hflush := (h.addError "trace_disabled").flushLocked hstuck io
    show Open dump (w.disable io)
    unfold TraceWriter.disable
    dsimp only
    split_ifs
    · exact hflush
    · exact { hflush with }
  | markCaptureError reason droppedRecord => exact h.markCaptureError reason droppedRecord
  | finish launchId completed drained io synced footer => cases hcall

include h in
/-- A call before `finish`. -/
theorem Open.step (hstuck : w.stuck = false) (call : Call) :
    Open dump (Writer.step dump w call) ∨ Closed dump (Writer.step dump w call) := by
  cases hcall : call.closes with
  | false => exact .inl (h.step_open hstuck hcall)
  | true =>
    cases call with
    | finish launchId completed drained io synced footer =>
      have hreturned : ¬w.stuck = true := by
        rw [Bool.not_eq_true]
        exact hstuck
      rw [Writer.step, if_neg hreturned]
      exact h.finish hstuck launchId completed drained io synced footer
    | writeMetadata _ | writeEncodedRecord _ _ | writeTrace _ _ _ | flush _ | disable _
    | markCaptureError _ _ => cases hcall

/-! ### What a call leaves behind -/

/-- Errors and drops are never taken back. -/
structure Grows (w w' : TraceWriter) : Prop where
  errors : w.captureErrors ⊆ w'.captureErrors
  dropped : w.droppedRecords ≤ w'.droppedRecords

theorem Grows.refl (w : TraceWriter) : Grows w w := ⟨Finset.Subset.refl _, le_rfl⟩

theorem Grows.trans {w₁ w₂ w₃ : TraceWriter} (h : Grows w₁ w₂) (h' : Grows w₂ w₃) : Grows w₁ w₃ :=
  ⟨h.errors.trans h'.errors, h.dropped.trans h'.dropped⟩

theorem grows_addError (reason : String) (w : TraceWriter) : Grows w (w.addError reason) :=
  ⟨Finset.subset_insert _ _, le_rfl⟩

theorem grows_drop (w : TraceWriter) : Grows w w.drop := ⟨Finset.Subset.refl _, Nat.le_succ _⟩

theorem grows_offer (text : Option (List Byte)) (w : TraceWriter) : Grows w (w.offer text) := by
  unfold TraceWriter.offer
  split_ifs
  · exact Grows.refl w
  · exact ⟨Finset.Subset.refl _, le_rfl⟩

theorem flushLocked_frame (io : List WriteResult) (w : TraceWriter) :
    Grows w (w.flushLocked io) ∧ (w.flushLocked io).offered = w.offered ∧
      (w.flushLocked io).lines = w.lines := by
  generalize hflush : w.flushLocked io = w'
  have hflushed : Flushed w w' := hflush ▸ flushLocked_flushed io w
  have hlines : (w.flushed ++ w.pending) ++ [] = w.lines := List.append_nil _
  cases hflushed with
  | idle _ => exact ⟨Grows.refl w, rfl, rfl⟩
  | batch _ => exact ⟨⟨Finset.Subset.refl _, le_rfl⟩, rfl, hlines⟩
  | broken _ _ => exact ⟨⟨Finset.subset_insert _ _, Nat.le_add_right _ _⟩, rfl, hlines⟩
  | hung _ _ => exact ⟨⟨Finset.Subset.refl _, le_rfl⟩, rfl, rfl⟩

theorem bufferRecord_frame (text : List Byte) (io : List WriteResult) (w : TraceWriter) :
    Grows w (w.bufferRecord dump text io) ∧ (w.bufferRecord dump text io).offered = w.offered := by
  unfold TraceWriter.bufferRecord TraceWriter.flushFull
  split_ifs
  · obtain ⟨hgrows, hoffered, -⟩ := flushLocked_frame io
      { w.append dump (.record text) with bufferedTraceRecords := w.bufferedTraceRecords + 1 }
    exact ⟨⟨hgrows.errors, hgrows.dropped⟩, hoffered⟩
  · exact ⟨⟨Finset.Subset.refl _, le_rfl⟩, rfl⟩

theorem writeJsonFormat_frame (text : Option (List Byte)) (io : List WriteResult)
    (w : TraceWriter) : Grows w (w.writeJsonFormat dump text io) ∧
      (w.writeJsonFormat dump text io).offered = w.offered := by
  cases text with
  | none =>
    refine ⟨?_, rfl⟩
    exact ((grows_addError _ w).trans (grows_addError _ _)).trans (grows_drop _)
  | some text => exact bufferRecord_frame text io w

def Call.offers : Call → List (Option (List Byte))
  | .writeEncodedRecord text _ => [some text]
  | .writeTrace text _ _ => [text]
  | .writeMetadata _ | .flush _ | .disable _ | .markCaptureError _ _ | .finish _ _ _ _ _ _ => []

theorem finishErrors_grows (synced completed drained : Bool) (w : TraceWriter) :
    Grows w (w.finishErrors synced completed drained) := by
  constructor
  · intro reason hreason
    cases synced <;> cases completed <;> cases drained <;>
      simp [TraceWriter.finishErrors, TraceWriter.addError, hreason]
  · exact (finishErrors_frame synced completed drained w).2.2.2.2.2.2.2.2.1.ge

theorem finishErrors_unverified (synced completed drained : Bool) (w : TraceWriter)
    (h : (completed && drained) = false) :
    (w.finishErrors synced completed drained).captureErrors.Nonempty := by
  cases completed with
  | false =>
    refine ⟨"kernel_completion_unverified", ?_⟩
    cases synced <;> cases drained <;> simp [TraceWriter.finishErrors, TraceWriter.addError]
  | true =>
    refine ⟨"channel_drain_unverified", ?_⟩
    rw [Bool.true_and] at h
    cases synced <;> simp [TraceWriter.finishErrors, TraceWriter.addError, h]

/-- The line that closes the file tells every error and drop before it. -/
theorem finish_frame (launchId : ℕ) (completed drained : Bool) (io : List WriteResult)
    (synced : Bool) (footer : List WriteResult) (w : TraceWriter) :
    let w' := w.finish dump launchId completed drained io synced footer
    Grows w w' ∧ w'.offered = w.offered ∧
      (w'.lines = w.lines ∨ ∃ c, w'.lines = w.lines ++ [.completion c] ∧
        w.captureErrors ⊆ c.errors ∧ w.droppedRecords ≤ c.droppedRecords ∧
        ((completed && drained) = false → c.errors.Nonempty)) := by
  dsimp only
  unfold TraceWriter.finish
  by_cases hfinished : w.finished = true
  · rw [if_pos hfinished]
    exact ⟨Grows.refl w, rfl, .inl rfl⟩
  rw [if_neg hfinished]
  obtain ⟨hgrows, hoffered, hlines⟩ := flushLocked_frame io w
  generalize w.flushLocked io = w₁ at *
  by_cases hhung : w₁.stuck = true
  · simp only [if_pos hhung]
    exact ⟨hgrows, hoffered, .inl hlines⟩
  simp only [if_neg hhung]
  obtain ⟨-, hlines', -, -, -, -, hoffered', -⟩ :=
    finishErrors_frame (synced || !w₁.opened) completed drained w₁
  have hgrows' := hgrows.trans (finishErrors_grows (synced || !w₁.opened) completed drained w₁)
  have hunverified := finishErrors_unverified (synced || !w₁.opened) completed drained w₁
  generalize w₁.finishErrors (synced || !w₁.opened) completed drained = w₂ at *
  by_cases hdisabled : w₂.enabled = false
  · rw [if_pos hdisabled]
    exact ⟨hgrows', hoffered'.trans hoffered, .inl (hlines'.trans hlines)⟩
  rw [if_neg hdisabled]
  obtain ⟨hgrows'', hoffered'', hlines''⟩ := flushLocked_frame footer
    (w₂.append dump (.completion (w₂.completion launchId completed drained)))
  refine ⟨⟨hgrows'.errors.trans hgrows''.errors, hgrows'.dropped.trans hgrows''.dropped⟩,
    hoffered''.trans (hoffered'.trans hoffered), .inr ⟨w₂.completion launchId completed drained, ?_,
      hgrows'.errors, hgrows'.dropped, hunverified⟩⟩
  rw [hlines'', lines_append, hlines', hlines]

theorem step_frame (hstuck : w.stuck = false) (call : Call) :
    Grows w (step dump w call) ∧
      (w.finished = false → (step dump w call).offered = w.offered ++ call.offers) := by
  unfold step
  rw [if_neg (by rw [hstuck]; exact Bool.false_ne_true)]
  cases call with
  | writeMetadata text =>
    show Grows w (w.writeMetadata dump text) ∧ (_ → (w.writeMetadata dump text).offered = _)
    unfold TraceWriter.writeMetadata
    rw [Call.offers, List.append_nil]
    split_ifs
    · exact ⟨Grows.refl w, fun _ => rfl⟩
    · exact ⟨⟨Finset.Subset.refl _, le_rfl⟩, fun _ => rfl⟩
  | writeEncodedRecord text io =>
    show Grows w (w.writeEncodedRecord dump text io) ∧
      (_ → (w.writeEncodedRecord dump text io).offered = _)
    have hoffer := grows_offer (some text) w
    unfold TraceWriter.writeEncodedRecord
    dsimp only
    split_ifs
    · refine ⟨(hoffer.trans (grows_drop _)).trans (grows_addError _ _), fun hopen => ?_⟩
      rw [offer_unfinished hopen]
      rfl
    · obtain ⟨hgrows, hoffered⟩ := @bufferRecord_frame dump text io (w.offer (some text))
      refine ⟨hoffer.trans hgrows, fun hopen => ?_⟩
      rw [hoffered, offer_unfinished hopen]
      rfl
  | writeTrace text identified io =>
    show Grows w (w.writeTrace dump text identified io) ∧
      (_ → (w.writeTrace dump text identified io).offered = _)
    have hoffer := grows_offer text w
    have hoffered (hopen : w.finished = false) : (w.offer text).offered = w.offered ++ [text] := by
      rw [offer_unfinished hopen]
    unfold TraceWriter.writeTrace
    dsimp only
    split_ifs
    · exact ⟨hoffer, hoffered⟩
    · exact ⟨hoffer.trans (grows_drop _), hoffered⟩
    · obtain ⟨hgrows, hsame⟩ := @writeJsonFormat_frame dump text io (w.offer text)
      exact ⟨hoffer.trans hgrows, fun hopen => hsame.trans (hoffered hopen)⟩
    · obtain ⟨hgrows, hsame⟩ := @writeJsonFormat_frame dump text io
        ((w.offer text).addError "missing_instruction_identity")
      exact ⟨(hoffer.trans (grows_addError _ _)).trans hgrows,
        fun hopen => hsame.trans (hoffered hopen)⟩
  | flush io =>
    obtain ⟨hgrows, hoffered, -⟩ := flushLocked_frame io w
    refine ⟨hgrows, fun _ => ?_⟩
    rw [Call.offers, List.append_nil]
    exact hoffered
  | disable io =>
    show Grows w (w.disable io) ∧ (_ → (w.disable io).offered = _)
    obtain ⟨hgrows, hoffered, -⟩ := flushLocked_frame io (w.addError "trace_disabled")
    have hgrows' := (grows_addError "trace_disabled" w).trans hgrows
    unfold TraceWriter.disable
    rw [Call.offers, List.append_nil]
    dsimp only
    split_ifs
    · exact ⟨hgrows', fun _ => hoffered⟩
    · exact ⟨⟨hgrows'.errors, hgrows'.dropped⟩, fun _ => hoffered⟩
  | markCaptureError reason droppedRecord =>
    show Grows w (w.markCaptureError reason droppedRecord) ∧
      (_ → (w.markCaptureError reason droppedRecord).offered = _)
    unfold TraceWriter.markCaptureError
    rw [Call.offers, List.append_nil]
    dsimp only
    split_ifs
    · exact ⟨⟨Finset.subset_insert _ _, Nat.le_succ _⟩, fun _ => rfl⟩
    · exact ⟨⟨Finset.subset_insert _ _, Nat.le_succ _⟩, fun _ => rfl⟩
    · exact ⟨grows_addError _ _, fun _ => rfl⟩
  | finish launchId completed drained io synced footer =>
    obtain ⟨hgrows, hoffered, -⟩ :=
      @finish_frame dump launchId completed drained io synced footer w
    refine ⟨hgrows, fun _ => ?_⟩
    rw [Call.offers, List.append_nil]
    exact hoffered


/-! ### Runs -/

theorem run_open_or_closed (h : Open dump w ∨ Closed dump w) (calls : List Call) :
    Open dump (run dump w calls) ∨ Closed dump (run dump w calls) := by
  induction calls generalizing w with
  | nil => exact h
  | cons call calls ih =>
    apply ih
    cases hstuck : w.stuck with
    | true =>
      have hsame : step dump w call = w := if_pos hstuck
      rw [hsame]
      exact h
    | false =>
      obtain hopen | hclosed := h
      · exact hopen.step hstuck call
      · exact .inr (hclosed.step hstuck call)

/-- The first line that closes the file is the last line of lines that end in one. -/
theorem footer_last {pre post pre' : List Line} {c c' : Completion} (h : NoFooter pre')
    (heq : pre ++ .completion c :: post = pre' ++ [.completion c']) :
    pre = pre' ∧ c = c' ∧ post = [] := by
  induction pre' generalizing pre with
  | nil =>
    cases pre with
    | nil =>
      cases heq
      exact ⟨rfl, rfl, rfl⟩
    | cons l pre =>
      have hlength := congrArg List.length heq
      simp at hlength
  | cons l pre' ih =>
    cases pre with
    | nil =>
      have hl : Line.completion c = l := (List.cons.inj heq).1
      exact absurd (hl ▸ List.mem_cons_self) (h c)
    | cons l' pre =>
      obtain ⟨rfl, htail⟩ := List.cons.inj heq
      obtain ⟨rfl, rfl, rfl⟩ := ih (fun c hc => h c (List.mem_cons_of_mem _ hc)) htail
      exact ⟨rfl, rfl, rfl⟩

include h in
/-- What `finish` says of a complete capture held before it. -/
theorem Open.finish_complete (hstuck : w.stuck = false) {launchId : ℕ} {completed drained : Bool}
    {io : List WriteResult} {synced : Bool} {footer : List WriteResult} {c : Completion}
    (hc : Line.completion c ∈ (w.finish dump launchId completed drained io synced footer).lines)
    (hcomplete : c.complete = true) :
    w.captureErrors = ∅ ∧ w.droppedRecords = 0 ∧ (completed && drained) = true ∧
      w.offered =
        (records (w.finish dump launchId completed drained io synced footer).lines).map some ∧
      c.traceRecordsWritten = w.offered.length := by
  have hends := h.finish hstuck launchId completed drained io synced footer
  obtain ⟨-, hoffered, hlines⟩ :=
    @finish_frame dump launchId completed drained io synced footer w
  generalize w.finish dump launchId completed drained io synced footer = w' at *
  obtain hsame | ⟨c', hlines, herrors, hdropped, hunverified⟩ := hlines
  · rw [hsame] at hc
    exact absurd hc (h.noFooter c)
  obtain hopen | hclosed := hends
  · exact absurd hc (hopen.noFooter c)
  obtain hnone | ⟨pre, c'', hend, hbefore, hsays⟩ := hclosed.truthful
  · exact absurd hc (hnone c)
  obtain ⟨rfl, rfl, -⟩ := footer_last hbefore (hlines.symm.trans hend)
  have hlast : c = c' := by
    rw [hlines] at hc
    obtain hc | hc := List.mem_append.mp hc
    · exact absurd hc (h.noFooter c)
    · exact Line.completion.inj (List.mem_singleton.mp hc)
  rw [← hlast] at herrors hdropped hunverified hsays
  obtain ⟨hempty, hzero⟩ := of_decide_eq_true hcomplete
  obtain ⟨hrecords, hnumber⟩ := hsays hcomplete
  rw [hoffered] at hrecords hnumber
  refine ⟨?_, ?_, ?_, ?_, hnumber⟩
  · rw [hempty] at herrors
    exact Finset.subset_empty.mp herrors
  · omega
  · cases hverified : completed && drained with
    | true => rfl
    | false =>
      have herror := hunverified hverified
      rw [hempty] at herror
      exact absurd herror Finset.not_nonempty_empty
  · rw [hend, records_append, hrecords]
    exact congrArg (List.map some) (List.append_nil _).symm

/-- The calls that only add metadata and errors. -/
def Call.quiet : Call → Bool
  | .writeMetadata _ | .markCaptureError _ _ => true
  | _ => false

theorem Call.quiet_frame {call : Call} (h : call.quiet = true) :
    call.closes = false ∧ call.offers = [] := by
  cases call with
  | writeMetadata _ | markCaptureError _ _ => exact ⟨rfl, rfl⟩
  | writeEncodedRecord _ _ | writeTrace _ _ _ | flush _ | disable _ | finish _ _ _ _ _ _ => cases h

theorem stuck_of_quiet (hstuck : w.stuck = false) {call : Call} (h : call.quiet = true) :
    (step dump w call).stuck = false := by
  unfold step
  rw [if_neg (by rw [hstuck]; exact Bool.false_ne_true)]
  cases call with
  | writeMetadata text =>
    show (w.writeMetadata dump text).stuck = false
    unfold TraceWriter.writeMetadata
    split_ifs
    · exact hstuck
    · exact hstuck
  | markCaptureError reason droppedRecord => cases droppedRecord <;> exact hstuck
  | writeEncodedRecord _ _ | writeTrace _ _ _ | flush _ | disable _ | finish _ _ _ _ _ _ => cases h

include h in
theorem Open.run_quiet (hstuck : w.stuck = false) {calls : List Call}
    (hquiet : ∀ call ∈ calls, call.quiet = true) :
    Open dump (run dump w calls) ∧ (run dump w calls).stuck = false ∧
      Grows w (run dump w calls) ∧ (run dump w calls).offered = w.offered := by
  induction calls generalizing w with
  | nil => exact ⟨h, hstuck, Grows.refl w, rfl⟩
  | cons call calls ih =>
    have hcall := hquiet call List.mem_cons_self
    obtain ⟨hcloses, hoffers⟩ := Call.quiet_frame hcall
    obtain ⟨hgrows, hoffered⟩ := @step_frame dump w hstuck call
    obtain ⟨hopen, hrun, hgrows', hoffered'⟩ := ih (h.step_open hstuck hcloses)
      (stuck_of_quiet hstuck hcall) fun c hc => hquiet c (List.mem_cons_of_mem _ hc)
    refine ⟨hopen, hrun, hgrows.trans hgrows', hoffered'.trans ?_⟩
    rw [hoffered h.unfinished, hoffers, List.append_nil]

include h in
/-- An error that one of them adds is there behind them. -/
theorem Open.run_marked (hstuck : w.stuck = false) {calls : List Call}
    (hquiet : ∀ call ∈ calls, call.quiet = true) {reason : String} {droppedRecord : Bool}
    (hmark : Call.markCaptureError reason droppedRecord ∈ calls) :
    (run dump w calls).captureErrors ≠ ∅ := by
  induction calls generalizing w with
  | nil => cases hmark
  | cons call calls ih =>
    have hcall := hquiet call List.mem_cons_self
    have hopen := h.step_open hstuck (Call.quiet_frame hcall).1
    have hrest : ∀ c ∈ calls, c.quiet = true := fun c hc => hquiet c (List.mem_cons_of_mem _ hc)
    obtain rfl | hmark := List.mem_cons.mp hmark
    · have hgrows := (hopen.run_quiet (stuck_of_quiet hstuck hcall) hrest).2.2.1
      have hreturned : ¬w.stuck = true := by
        rw [Bool.not_eq_true]
        exact hstuck
      have hadded : reason ∈
          (Writer.step dump w (.markCaptureError reason droppedRecord)).captureErrors := by
        rw [Writer.step, if_neg hreturned]
        cases droppedRecord <;> exact Finset.mem_insert_self _ _
      exact Finset.ne_empty_of_mem (hgrows.errors hadded)
    · exact ih hopen (stuck_of_quiet hstuck hcall) hrest hmark

/-- In every run every offered or reported record is written, dropped or in the buffer
until the writer is finished; and where the line that closes the file is in it and says
"complete", the file is that line behind lines that hold the offered records in order, and
the line tells their number. -/
theorem run_truthful (dump : Completion → List Byte) (opened : Bool) (threshold : ℕ)
    (calls : List Call) :
    let w := run dump (.create opened threshold) calls
    (w.finished = false → w.offered.length + w.reported =
      w.traceRecordsWritten + w.droppedRecords + w.bufferedTraceRecords) ∧
    ∀ pre c post, w.lines = pre ++ .completion c :: post → bytes dump pre ++ dump c <+: w.file →
      c.complete = true →
        w.offered = (records pre).map some ∧ c.traceRecordsWritten = w.offered.length ∧
          post = [] ∧ (w.file = bytes dump pre ++ dump c ∨
            w.file = bytes dump pre ++ dump c ++ [newline]) := by
  intro w
  have hinv : Open dump w ∨ Closed dump w :=
    run_open_or_closed (.inl (open_create opened threshold)) calls
  constructor
  · intro hunfinished
    obtain hopen | hclosed := hinv
    · exact hopen.account
    · rw [hclosed.finished] at hunfinished
      cases hunfinished
  · intro pre c post hlines hthere hcomplete
    have hmem : Line.completion c ∈ w.lines := by
      rw [hlines]
      exact List.mem_append_right _ List.mem_cons_self
    obtain hopen | hclosed := hinv
    · exact absurd hmem (hopen.noFooter c)
    · obtain hnone | ⟨pre', c', hend, hbefore, hsays⟩ := hclosed.truthful
      · exact absurd hmem (hnone c)
      · obtain ⟨rfl, rfl, rfl⟩ := footer_last hbefore (hlines.symm.trans hend)
        obtain ⟨hoffered, hnumber⟩ := hsays hcomplete
        refine ⟨hoffered, hnumber, rfl, ?_⟩
        have hfile := hclosed.file
        rw [hlines, bytes_append, bytes_singleton, Line.bytes, Line.text, ← List.append_assoc] at hfile
        obtain hfull | hunterminated := List.prefix_concat_iff.mp hfile
        · exact .inr hfull
        · exact .inl (hunterminated.eq_of_length_le hthere.length_le)

end

/-- A completion in four bytes, enough to tell the ones below apart. -/
def sampleDump (c : Completion) : List Byte :=
  [123, if c.complete then 1 else 0, UInt8.ofNat c.traceRecordsWritten, 125]

/-- A metadata line and two records; the first batch is interrupted and comes in two parts,
and the file is closed. -/
def sampleCalls : List Call :=
  [.writeMetadata [77], .writeTrace (some [65, 65]) true [.wrote 3, .interrupted, .wrote 2],
    .writeEncodedRecord [66] [], .finish 7 true true [.wrote 2] true [.wrote 5]]

def sampleCompletion : Completion where
  gridLaunchId := 7
  kernelCompleted := true
  channelDrained := true
  traceRecordsWritten := 2
  droppedRecords := 0
  errors := ∅

def sampleClosed : TraceWriter := run sampleDump (.create true 5) sampleCalls

theorem run_truthful_small :
    (run sampleDump (.create true 5) (sampleCalls.take 3)).offered.length = 2 ∧
      sampleClosed.offered = [some [65, 65], some [66]] := by
  constructor
  · have hcount := (run_truthful sampleDump true 5 (sampleCalls.take 3)).1 rfl
    exact hcount.trans rfl
  · have hlines : sampleClosed.lines =
        [.metadata [77], .record [65, 65], .record [66]] ++ .completion sampleCompletion :: [] := rfl
    have hthere : bytes sampleDump [.metadata [77], .record [65, 65], .record [66]] ++
        sampleDump sampleCompletion <+: sampleClosed.file := ⟨[newline], by decide +kernel⟩
    exact ((run_truthful sampleDump true 5 sampleCalls).2 _ _ _ hlines hthere
      (by decide +kernel)).1

/-- A drop that is only reported is counted, and no record was offered. -/
theorem reported_without_record :
    ¬∀ (dump : Completion → List Byte) (opened : Bool) (threshold : ℕ) (calls : List Call),
      let w := run dump (.create opened threshold) calls
      w.finished = false → w.offered.length =
        w.traceRecordsWritten + w.droppedRecords + w.bufferedTraceRecords := by
  intro h
  have hcount := h sampleDump true 5 [.markCaptureError "invalid_tma_size" true] rfl
  exact absurd hcount (by decide +kernel)

end CuTracer.Capture.Writer
