import CuTracer.Capture.Writer
import Mathlib.Algebra.GroupWithZero.Nat
import Mathlib.Data.List.Induction

/-! The writer in its compressed mode. Lines are buffered as in the plain mode, and a batch
goes through zstd into a destination that was allocated once, for a batch of the threshold's
size. A batch can be larger: the last record is appended whole, and metadata never flushes. -/

namespace CuTracer.Capture.Compressed

open Writer

/-- The part of zstd that the writer calls: the bound on the size of what some bytes
compress to, and one compression into a destination of a capacity, `none` for an error. -/
structure Zstd where
  compressBound : ℕ → ℕ
  compress : ℕ → List Byte → Option (List Byte)

/-- A compression succeeds in a destination that has the bound's capacity. -/
def Zstd.Reliable (z : Zstd) : Prop :=
  ∀ capacity data, z.compressBound data.length ≤ capacity → (z.compress capacity data).isSome

/-- A call of `ZSTD_compressCCtx`: the capacity of its destination, and the bytes given. -/
structure Compression where
  capacity : ℕ
  size : ℕ

/-- The writer with its destination, the compressions so far, and how many records the
batches held that did not compress. -/
structure CompressedWriter extends TraceWriter where
  capacity : ℕ := 0
  zstdCtx : Bool := false
  compressions : List Compression := []
  lostToSpace : ℕ := 0

section

variable (z : Zstd) (dump : Completion → List Byte)

/-- The constructor; `context` tells whether zstd gave a context. -/
def create (opened context : Bool) (bufferThreshold : ℕ) : CompressedWriter :=
  if opened = true ∧ context = true then
    { TraceWriter.create true bufferThreshold with
      capacity := z.compressBound bufferThreshold
      zstdCtx := true }
  else { toTraceWriter := .create false bufferThreshold }

namespace CompressedWriter

/-- A change of the fields that the modes share. -/
def lift (f : TraceWriter → TraceWriter) (w : CompressedWriter) : CompressedWriter :=
  { w with toTraceWriter := f w.toTraceWriter }

/-- `finish_buffer_write` of a batch that did not compress. -/
def loseBatch (w : CompressedWriter) : CompressedWriter :=
  { w.lift fun v => (v.addError "compression_failed").finishBufferWrite false with
    lostToSpace := w.lostToSpace + w.bufferedTraceRecords }

/-- `write_compressed`, which is `flush_locked` in this mode. -/
def writeCompressed (io : List WriteResult) (w : CompressedWriter) : CompressedWriter :=
  if w.jsonBuffer = [] ∨ w.enabled = false ∨ w.zstdCtx = false then w
  else
    let called : CompressedWriter :=
      { w with compressions := w.compressions ++ [⟨w.capacity, w.jsonBuffer.length⟩] }
    match z.compress w.capacity w.jsonBuffer with
    | none => called.loseBatch
    | some compressed =>
      let written := writeData io compressed
      let landed := called.lift fun v => { v with file := v.file ++ written.landed }
      match written.result with
      | some success => landed.lift (·.finishBufferWrite success)
      | none => landed.lift fun v => { v with stuck := true }

variable (text : List Byte)

def writeMetadata (w : CompressedWriter) : CompressedWriter :=
  w.lift (·.writeMetadata dump text)

def appendRecord (w : CompressedWriter) : CompressedWriter :=
  w.lift fun v =>
    { v.append dump (.record text) with bufferedTraceRecords := v.bufferedTraceRecords + 1 }

/-- A record that is accepted into the buffer, which is compressed once it is full. -/
def bufferRecord (io : List WriteResult) (w : CompressedWriter) : CompressedWriter :=
  let w := w.appendRecord dump text
  if w.bufferThreshold ≤ w.jsonBuffer.length then w.writeCompressed z io else w

def writeEncodedRecord (io : List WriteResult) (w : CompressedWriter) : CompressedWriter :=
  let w := w.lift (·.offer (some text))
  if w.finished = true ∨ w.isEnabled = false then
    w.lift fun v => v.drop.addError "record_write_rejected"
  else w.bufferRecord z dump text io

def writeJsonFormat (text : Option (List Byte)) (io : List WriteResult) (w : CompressedWriter) :
    CompressedWriter :=
  match text with
  | none => w.lift fun v =>
      ((v.addError "serialization_failed").addError "record_write_failed").drop
  | some text => w.bufferRecord z dump text io

def writeTrace (text : Option (List Byte)) (identified : Bool) (io : List WriteResult)
    (w : CompressedWriter) : CompressedWriter :=
  let w := w.lift (·.offer text)
  if w.finished then w
  else if w.isEnabled = false then w.lift (·.drop)
  else
    (w.lift fun v => if identified then v else v.addError "missing_instruction_identity").writeJsonFormat
      z dump text io

def disable (io : List WriteResult) (w : CompressedWriter) : CompressedWriter :=
  let w := (w.lift (·.addError "trace_disabled")).writeCompressed z io
  if w.stuck then w else w.lift fun v => { v with acceptingRecords := false }

def finish (launchId : ℕ) (kernelCompleted channelDrained : Bool) (io : List WriteResult)
    (synced : Bool) (footer : List WriteResult) (w : CompressedWriter) : CompressedWriter :=
  if w.finished then w
  else
    let w := w.writeCompressed z io
    if w.stuck then w
    else
      let w := w.lift (·.finishErrors (synced || !w.opened) kernelCompleted channelDrained)
      if w.enabled = false then w
      else (w.lift fun v => v.append dump
        (.completion (v.completion launchId kernelCompleted channelDrained))).writeCompressed z footer

end CompressedWriter

/-- No call gets past one that has not returned. -/
def step (w : CompressedWriter) (call : Call) : CompressedWriter :=
  if w.stuck then w
  else match call with
  | .writeMetadata text => w.writeMetadata dump text
  | .writeEncodedRecord text io => w.writeEncodedRecord z dump text io
  | .writeTrace text identified io => w.writeTrace z dump text identified io
  | .flush io => w.writeCompressed z io
  | .disable io => w.disable z io
  | .markCaptureError reason droppedRecord => w.lift (·.markCaptureError reason droppedRecord)
  | .finish launchId kernelCompleted channelDrained io synced footer =>
    w.finish z dump launchId kernelCompleted channelDrained io synced footer

def run (w : CompressedWriter) (calls : List Call) : CompressedWriter :=
  calls.foldl (step z dump) w

/-! ### Room for a batch -/

/-- The destination has room for some bytes: they need no more than the threshold's. -/
def Room (w : CompressedWriter) (size : ℕ) : Prop :=
  z.compressBound size ≤ z.compressBound w.bufferThreshold

/-- What is in the buffer has room, if it is to be written. -/
def FlushFits (w : CompressedWriter) : Prop :=
  w.enabled = true → w.jsonBuffer ≠ [] → Room z w w.jsonBuffer.length

/-- A record that is accepted and fills the buffer to the threshold has room there. -/
def RecordFits (w : CompressedWriter) (text : List Byte) : Prop :=
  let size := w.jsonBuffer.length + (text.length + 1)
  w.finished = false → w.isEnabled = true → w.bufferThreshold ≤ size → Room z w size

/-- The line that closes the file after the batch in the buffer. -/
def footerLine (launchId : ℕ) (kernelCompleted channelDrained : Bool) (w : CompressedWriter) :
    List Byte :=
  dump (((w.finishBufferWrite true).finishErrors true kernelCompleted channelDrained).completion
    launchId kernelCompleted channelDrained)

/-- Whatever a call compresses has room in the destination. -/
def Fits (w : CompressedWriter) : Call → Prop
  | .writeMetadata _ => True
  | .writeEncodedRecord text _ => RecordFits z w text
  | .writeTrace text _ _ => ∀ t, text = some t → RecordFits z w t
  | .flush _ => FlushFits z w
  | .disable _ => FlushFits z w
  | .markCaptureError _ _ => True
  | .finish launchId kernelCompleted channelDrained _ _ _ =>
    w.finished = false → FlushFits z w ∧
      (w.enabled = true → Room z w ((footerLine dump launchId kernelCompleted channelDrained w).length + 1))

def FitsAll (w : CompressedWriter) : List Call → Prop
  | [] => True
  | call :: calls => Fits z dump w call ∧ FitsAll (step z dump w call) calls

/-- Every compression so far had the bound's capacity, and lost no record. -/
structure Roomy (w : CompressedWriter) : Prop where
  context : w.enabled = true → w.zstdCtx = true
  capacity : w.zstdCtx = true → w.capacity = z.compressBound w.bufferThreshold
  empty : w.jsonBuffer = [] → w.bufferedTraceRecords = 0
  room : ∀ c ∈ w.compressions, z.compressBound c.size ≤ c.capacity
  kept : w.lostToSpace = 0

variable {z dump} {w : CompressedWriter}

theorem roomy_create (opened context : Bool) (threshold : ℕ) :
    Roomy z (create z opened context threshold) := by
  unfold create
  split_ifs
  · exact ⟨fun _ => rfl, fun _ => rfl, fun _ => rfl, fun _ => nofun, rfl⟩
  · exact ⟨nofun, nofun, fun _ => rfl, fun _ => nofun, rfl⟩

/-- A change of the shared fields that enables nothing and leaves no record in an empty
buffer. -/
theorem Roomy.lift (h : Roomy z w) {f : TraceWriter → TraceWriter}
    (hthreshold : (f w.toTraceWriter).bufferThreshold = w.bufferThreshold)
    (henabled : (f w.toTraceWriter).enabled = true → w.enabled = true)
    (hempty : (f w.toTraceWriter).jsonBuffer = [] → (f w.toTraceWriter).bufferedTraceRecords = 0) :
    Roomy z (w.lift f) where
  context := fun hon => h.context (henabled hon)
  capacity := fun hcontext => (h.capacity hcontext).trans (congrArg z.compressBound hthreshold.symm)
  empty := hempty
  room := h.room
  kept := h.kept

/-- A batch that has room is compressed and loses no record. -/
theorem Roomy.writeCompressed (h : Roomy z w) (hz : z.Reliable) (hfits : FlushFits z w)
    (io : List WriteResult) : Roomy z (w.writeCompressed z io) := by
  unfold CompressedWriter.writeCompressed
  by_cases hidle : w.jsonBuffer = [] ∨ w.enabled = false ∨ w.zstdCtx = false
  · rw [if_pos hidle]
    exact h
  rw [if_neg hidle]
  simp only [not_or, Bool.not_eq_false] at hidle
  obtain ⟨hbuffer, henabled, hcontext⟩ := hidle
  have hroom : z.compressBound w.jsonBuffer.length ≤ w.capacity := by
    rw [h.capacity hcontext]
    exact hfits henabled hbuffer
  obtain ⟨compressed, hcompressed⟩ := Option.isSome_iff_exists.mp (hz w.capacity w.jsonBuffer hroom)
  have hcalled : Roomy z
      { w with compressions := w.compressions ++ [⟨w.capacity, w.jsonBuffer.length⟩] } :=
    ⟨h.context, h.capacity, h.empty, fun c hc => by
      rcases List.mem_append.mp hc with hc | hc
      · exact h.room c hc
      · obtain rfl := List.mem_singleton.mp hc
        exact hroom, h.kept⟩
  simp only [hcompressed]
  cases (writeData io compressed).result with
  | none => exact { hcalled with }
  | some success =>
    cases success with
    | true => exact ⟨hcalled.context, hcalled.capacity, fun _ => rfl, hcalled.room, hcalled.kept⟩
    | false => exact ⟨nofun, hcalled.capacity, fun _ => rfl, hcalled.room, hcalled.kept⟩

theorem length_appendRecord (dump : Completion → List Byte) (w : CompressedWriter) (text : List Byte) :
    (w.appendRecord dump text).jsonBuffer.length = w.jsonBuffer.length + (text.length + 1) := by
  show (w.jsonBuffer ++ (text ++ [newline])).length = _
  rw [List.length_append, List.length_append, List.length_singleton]

theorem Roomy.bufferRecord (h : Roomy z w) (hz : z.Reliable) {text : List Byte}
    (hfits : RecordFits z w text) (hunfinished : w.finished = false) (henabled : w.isEnabled = true)
    (io : List WriteResult) : Roomy z (w.bufferRecord z dump text io) := by
  have hlength := length_appendRecord dump w text
  have happended : Roomy z (w.appendRecord dump text) :=
    h.lift rfl (fun hon => hon) fun hnil => by
      have hzero : (w.appendRecord dump text).jsonBuffer.length = 0 := congrArg List.length hnil
      omega
  show Roomy z (if w.bufferThreshold ≤ (w.appendRecord dump text).jsonBuffer.length then
    (w.appendRecord dump text).writeCompressed z io else w.appendRecord dump text)
  rw [hlength]
  split_ifs with hfull
  · refine happended.writeCompressed hz (fun _ _ => ?_) io
    rw [hlength]
    exact hfits hunfinished henabled hfull
  · exact happended

theorem Roomy.offer (h : Roomy z w) (text : Option (List Byte)) : Roomy z (w.lift (·.offer text)) := by
  unfold CompressedWriter.lift TraceWriter.offer
  by_cases hfinished : w.finished = true
  · simp only [if_pos hfinished]
    exact h
  · simp only [if_neg hfinished]
    exact { h with }

theorem Roomy.addError (h : Roomy z w) (reason : String) : Roomy z (w.lift (·.addError reason)) :=
  { h with }

theorem Roomy.markCaptureError (h : Roomy z w) (reason : String) (droppedRecord : Bool) :
    Roomy z (w.lift (·.markCaptureError reason droppedRecord)) := by
  cases droppedRecord
  · exact { h with }
  · exact { h with }

theorem Roomy.writeMetadata (h : Roomy z w) (text : List Byte) :
    Roomy z (w.writeMetadata dump text) := by
  unfold CompressedWriter.writeMetadata CompressedWriter.lift TraceWriter.writeMetadata
  by_cases hrefused : w.isEnabled = false ∨ w.finished = true
  · simp only [if_pos hrefused]
    exact h
  · simp only [if_neg hrefused]
    refine ⟨h.context, h.capacity, fun hnil => ?_, h.room, h.kept⟩
    exact absurd hnil (by simp [TraceWriter.append, Line.bytes])

/-- Offering a record changes nothing that its room depends on. -/
theorem RecordFits.offer {text : List Byte} (h : RecordFits z w text) (offered : Option (List Byte)) :
    RecordFits z (w.lift (·.offer offered)) text := by
  unfold CompressedWriter.lift TraceWriter.offer
  by_cases hfinished : w.finished = true
  · simp only [if_pos hfinished]
    exact h
  · simp only [if_neg hfinished]
    exact h

theorem Roomy.writeEncodedRecord (h : Roomy z w) (hz : z.Reliable) {text : List Byte}
    (hfits : RecordFits z w text) (io : List WriteResult) :
    Roomy z (w.writeEncodedRecord z dump text io) := by
  have hoffered := h.offer (some text)
  unfold CompressedWriter.writeEncodedRecord
  by_cases hrefused : (w.lift (·.offer (some text))).finished = true ∨
      (w.lift (·.offer (some text))).isEnabled = false
  · simp only [if_pos hrefused]
    exact hoffered.lift rfl (fun hon => hon) hoffered.empty
  · simp only [if_neg hrefused]
    rw [not_or, Bool.not_eq_true, Bool.not_eq_false] at hrefused
    exact hoffered.bufferRecord hz (hfits.offer _) hrefused.1 hrefused.2 io

theorem Roomy.writeJsonFormat (h : Roomy z w) (hz : z.Reliable) {text : Option (List Byte)}
    (hfits : ∀ t, text = some t → RecordFits z w t) (hunfinished : w.finished = false)
    (henabled : w.isEnabled = true) (io : List WriteResult) :
    Roomy z (w.writeJsonFormat z dump text io) := by
  cases text with
  | none => exact { h with }
  | some text => exact h.bufferRecord hz (hfits text rfl) hunfinished henabled io

theorem Roomy.writeTrace (h : Roomy z w) (hz : z.Reliable) {text : Option (List Byte)}
    (hfits : ∀ t, text = some t → RecordFits z w t) (identified : Bool) (io : List WriteResult) :
    Roomy z (w.writeTrace z dump text identified io) := by
  have hoffered := h.offer text
  unfold CompressedWriter.writeTrace
  by_cases hfinished : (w.lift (·.offer text)).finished = true
  · simp only [if_pos hfinished]
    exact hoffered
  · simp only [if_neg hfinished]
    by_cases hdisabled : (w.lift (·.offer text)).isEnabled = false
    · simp only [if_pos hdisabled]
      exact hoffered.lift rfl (fun hon => hon) hoffered.empty
    · simp only [if_neg hdisabled]
      rw [Bool.not_eq_true] at hfinished
      rw [Bool.not_eq_false] at hdisabled
      have hfits' := fun t ht => (hfits t ht).offer text
      cases identified with
      | true => exact hoffered.writeJsonFormat hz hfits' hfinished hdisabled io
      | false => exact (hoffered.addError _).writeJsonFormat hz hfits' hfinished hdisabled io

theorem Roomy.disable (h : Roomy z w) (hz : z.Reliable) (hfits : FlushFits z w)
    (io : List WriteResult) : Roomy z (w.disable z io) := by
  have hflushed := (h.addError "trace_disabled").writeCompressed hz hfits io
  show Roomy z (if ((w.lift (·.addError "trace_disabled")).writeCompressed z io).stuck = true then _
    else _)
  split_ifs
  · exact hflushed
  · exact hflushed.lift rfl (fun hon => hon) hflushed.empty

/-- The counters and errors that the closing line tells. -/
def Tells (v u : TraceWriter) : Prop :=
  v.traceRecordsWritten = u.traceRecordsWritten ∧ v.droppedRecords = u.droppedRecords ∧
    v.captureErrors = u.captureErrors

theorem Tells.completion {v u : TraceWriter} (h : Tells v u) (launchId : ℕ)
    (kernelCompleted channelDrained : Bool) :
    (v.finishErrors true kernelCompleted channelDrained).completion launchId kernelCompleted
        channelDrained =
      (u.finishErrors true kernelCompleted channelDrained).completion launchId kernelCompleted
        channelDrained := by
  obtain ⟨hwritten, hdropped, herrors⟩ := h
  cases kernelCompleted <;> cases channelDrained <;>
    simp [TraceWriter.finishErrors, TraceWriter.completion, TraceWriter.addError, hwritten, hdropped,
      herrors]

/-- A flush that returned and left the writer enabled wrote the batch. -/
theorem Roomy.tells (h : Roomy z w) (hz : z.Reliable) (hfits : FlushFits z w) (io : List WriteResult)
    (hreturned : (w.writeCompressed z io).stuck = false)
    (henabled : (w.writeCompressed z io).enabled = true) :
    (w.writeCompressed z io).jsonBuffer = [] ∧
      Tells (w.writeCompressed z io).toTraceWriter (w.finishBufferWrite true) := by
  unfold CompressedWriter.writeCompressed at hreturned henabled ⊢
  by_cases hidle : w.jsonBuffer = [] ∨ w.enabled = false ∨ w.zstdCtx = false
  · rw [if_pos hidle] at henabled ⊢
    have hbuffer : w.jsonBuffer = [] := by
      rcases hidle with hbuffer | hoff | hcontext
      · exact hbuffer
      · rw [hoff] at henabled
        cases henabled
      · rw [h.context henabled] at hcontext
        cases hcontext
    exact ⟨hbuffer, by rw [TraceWriter.finishBufferWrite, h.empty hbuffer]; rfl, rfl, rfl⟩
  rw [if_neg hidle] at hreturned henabled ⊢
  simp only [not_or, Bool.not_eq_false] at hidle
  obtain ⟨hbuffer, hon, hcontext⟩ := hidle
  have hroom : z.compressBound w.jsonBuffer.length ≤ w.capacity := by
    rw [h.capacity hcontext]
    exact hfits hon hbuffer
  obtain ⟨compressed, hcompressed⟩ := Option.isSome_iff_exists.mp (hz w.capacity w.jsonBuffer hroom)
  simp only [hcompressed] at hreturned henabled ⊢
  cases hresult : (writeData io compressed).result with
  | none =>
    simp only [hresult] at hreturned
    cases hreturned
  | some success =>
    simp only [hresult] at henabled ⊢
    cases success with
    | true => exact ⟨rfl, rfl, rfl, rfl⟩
    | false => cases henabled

theorem finishErrors_shared (v : TraceWriter) (synced kernelCompleted channelDrained : Bool) :
    (v.finishErrors synced kernelCompleted channelDrained).bufferThreshold = v.bufferThreshold ∧
    (v.finishErrors synced kernelCompleted channelDrained).jsonBuffer = v.jsonBuffer ∧
    (v.finishErrors synced kernelCompleted channelDrained).bufferedTraceRecords =
      v.bufferedTraceRecords ∧
    (v.finishErrors synced kernelCompleted channelDrained).enabled = (synced && v.enabled) := by
  cases synced <;> cases kernelCompleted <;> cases channelDrained <;> exact ⟨rfl, rfl, rfl, rfl⟩

theorem bufferThreshold_writeCompressed (io : List WriteResult) :
    (w.writeCompressed z io).bufferThreshold = w.bufferThreshold := by
  unfold CompressedWriter.writeCompressed
  split_ifs
  · rfl
  cases z.compress w.capacity w.jsonBuffer with
  | none => rfl
  | some compressed =>
    cases hresult : (writeData io compressed).result with
    | none => simp only [hresult, CompressedWriter.lift]
    | some success => cases success <;> simp only [hresult] <;> rfl

theorem enabled_writeCompressed (io : List WriteResult)
    (h : (w.writeCompressed z io).enabled = true) : w.enabled = true := by
  unfold CompressedWriter.writeCompressed at h
  by_cases hidle : w.jsonBuffer = [] ∨ w.enabled = false ∨ w.zstdCtx = false
  · rwa [if_pos hidle] at h
  · simp only [not_or, Bool.not_eq_false] at hidle
    exact hidle.2.1

theorem Roomy.finish (h : Roomy z w) (hz : z.Reliable) {launchId : ℕ}
    {kernelCompleted channelDrained : Bool}
    (hfits : w.finished = false → FlushFits z w ∧ (w.enabled = true →
      Room z w ((footerLine dump launchId kernelCompleted channelDrained w).length + 1)))
    (io : List WriteResult) (synced : Bool) (footer : List WriteResult) :
    Roomy z (w.finish z dump launchId kernelCompleted channelDrained io synced footer) := by
  unfold CompressedWriter.finish
  by_cases hfinished : w.finished = true
  · rw [if_pos hfinished]
    exact h
  rw [if_neg hfinished]
  obtain ⟨hflush, hfooter⟩ := hfits (Bool.not_eq_true _ ▸ hfinished)
  have hflushed := h.writeCompressed hz hflush io
  have htells := h.tells hz hflush io
  have hthreshold := bufferThreshold_writeCompressed (z := z) (w := w) io
  have hon : (w.writeCompressed z io).enabled = true → w.enabled = true := enabled_writeCompressed io
  generalize w.writeCompressed z io = flushed at hflushed htells hthreshold hon ⊢
  by_cases hstuck : flushed.stuck = true
  · simp only [if_pos hstuck]
    exact hflushed
  simp only [if_neg hstuck]
  obtain ⟨hsame, hbuffer, hbuffered, henabled⟩ := finishErrors_shared flushed.toTraceWriter
    (synced || !flushed.opened) kernelCompleted channelDrained
  have hclosing : Roomy z (flushed.lift
      (·.finishErrors (synced || !flushed.opened) kernelCompleted channelDrained)) := by
    refine hflushed.lift hsame (fun hboth => ?_) (fun hnil => ?_)
    · rw [henabled, Bool.and_eq_true] at hboth
      exact hboth.2
    · rw [hbuffered]
      exact hflushed.empty (hbuffer ▸ hnil)
  by_cases hoff : (flushed.lift
      (·.finishErrors (synced || !flushed.opened) kernelCompleted channelDrained)).enabled = false
  · simp only [if_pos hoff]
    exact hclosing
  simp only [if_neg hoff]
  rw [Bool.not_eq_false] at hoff
  have hboth : (synced || !flushed.opened) = true ∧ flushed.enabled = true := by
    rw [← Bool.and_eq_true, ← henabled]
    exact hoff
  obtain ⟨hempty, hline⟩ := htells (Bool.not_eq_true _ ▸ hstuck) hboth.2
  have hfooter := hfooter (hon hboth.2)
  rw [footerLine, ← hline.completion, ← hboth.1] at hfooter
  refine Roomy.writeCompressed ?_ hz (fun _ _ => ?_) footer
  · refine hclosing.lift rfl (fun hon => hon) fun hnil => ?_
    exact absurd hnil (by simp [TraceWriter.append, Line.bytes])
  · show z.compressBound ((flushed.finishErrors _ _ _).jsonBuffer ++ (dump _ ++ [newline])).length ≤
      z.compressBound (flushed.finishErrors _ _ _).bufferThreshold
    rw [hbuffer, hempty, hsame, hthreshold, List.nil_append, List.length_append, List.length_singleton]
    exact hfooter

theorem Roomy.step (h : Roomy z w) (hz : z.Reliable) {call : Call} (hfits : Fits z dump w call) :
    Roomy z (step z dump w call) := by
  unfold Compressed.step
  split_ifs
  · exact h
  cases call with
  | writeMetadata text => exact h.writeMetadata text
  | writeEncodedRecord text io => exact h.writeEncodedRecord hz hfits io
  | writeTrace text identified io => exact h.writeTrace hz hfits identified io
  | flush io => exact h.writeCompressed hz hfits io
  | disable io => exact h.disable hz hfits io
  | markCaptureError reason droppedRecord => exact h.markCaptureError reason droppedRecord
  | finish launchId kernelCompleted channelDrained io synced footer =>
    exact h.finish hz hfits io synced footer

theorem Roomy.run {calls : List Call} (h : Roomy z w) (hz : z.Reliable)
    (hfits : FitsAll z dump w calls) : Roomy z (run z dump w calls) := by
  induction calls generalizing w with
  | nil => exact h
  | cons call calls ih => exact ih (h.step hz hfits.1) hfits.2

theorem mem_compressions_writeCompressed (henabled : w.enabled = true) (hcontext : w.zstdCtx = true)
    (hbuffer : w.jsonBuffer ≠ []) (io : List WriteResult) :
    ⟨w.capacity, w.jsonBuffer.length⟩ ∈ (w.writeCompressed z io).compressions := by
  have hbusy : ¬(w.jsonBuffer = [] ∨ w.enabled = false ∨ w.zstdCtx = false) := by
    simp [hbuffer, henabled, hcontext]
  unfold CompressedWriter.writeCompressed
  rw [if_neg hbusy]
  cases z.compress w.capacity w.jsonBuffer with
  | none => exact List.mem_concat_self
  | some compressed =>
    cases hresult : (writeData io compressed).result with
    | none =>
      simp only [hresult]
      exact List.mem_concat_self
    | some success =>
      simp only [hresult]
      exact List.mem_concat_self

/-- In every run whose calls all fit, each compression has the bound's capacity, and no
record is dropped for want of it. -/
theorem run_has_space {z : Zstd} (hz : z.Reliable) (dump : Completion → List Byte)
    (opened context : Bool) (threshold : ℕ) {calls : List Call}
    (hfits : FitsAll z dump (create z opened context threshold) calls) :
    let w := run z dump (create z opened context threshold) calls
    (∀ c ∈ w.compressions, z.compressBound c.size ≤ c.capacity) ∧ w.lostToSpace = 0 := by
  have hroomy := (roomy_create opened context threshold).run hz hfits
  exact ⟨hroomy.room, hroomy.kept⟩

end

/-! ### The plain writer behind it -/

/-- What is asked for by a call, whatever `write` does. -/
def asked : Call → Call
  | .writeEncodedRecord text _ => .writeEncodedRecord text []
  | .writeTrace text identified _ => .writeTrace text identified []
  | .flush _ => .flush []
  | .disable _ => .disable []
  | .finish launchId completed drained _ synced _ => .finish launchId completed drained [] synced []
  | call => call

/-- A plain writer in the same state, up to the bytes of the file. The errors agree until a
batch is lost, and nothing is written from then on. -/
def Like (v : TraceWriter) (w : CompressedWriter) : Prop :=
  ∃ file errors, w.toTraceWriter = { v with file := file, captureErrors := errors } ∧
    (errors = v.captureErrors ∨ v.enabled = false) ∧ (v.enabled = true → v.opened = true ∧ w.zstdCtx = true)

section

variable (z : Zstd) (dump : Completion → List Byte) {v : TraceWriter} {w : CompressedWriter}

theorem Like.same (h : Like v w) {α : Type} (field : TraceWriter → α)
    (hfield : ∀ file errors, field { v with file := file, captureErrors := errors } = field v) :
    field w.toTraceWriter = field v := by
  obtain ⟨file, errors, hsame, -⟩ := h
  rw [hsame, hfield]

theorem Like.ite {v' : TraceWriter} {w' : CompressedWriter} {p q : Prop} [Decidable p] [Decidable q]
    (hiff : q ↔ p) (h : Like v w) (h' : Like v' w') :
    Like (if p then v else v') (if q then w else w') := by
  simp only [hiff]
  split_ifs
  exacts [h, h']

/-- A change of the shared fields that no error, file or enabling depends on. -/
theorem Like.lift (h : Like v w) {f : TraceWriter → TraceWriter}
    (hf : ∀ file errors, f { v with file := file, captureErrors := errors } =
      { f v with file := file, captureErrors := errors })
    (herrors : (f v).captureErrors = v.captureErrors) (hopened : (f v).opened = v.opened)
    (henabled : (f v).enabled = v.enabled) : Like (f v) (w.lift f) := by
  obtain ⟨file, errors, hsame, hagree, hon⟩ := h
  refine ⟨file, errors, (congrArg f hsame).trans (hf file errors), ?_, ?_⟩
  · rwa [herrors, henabled]
  · rwa [hopened, henabled]

theorem Like.addError (h : Like v w) (reason : String) :
    Like (v.addError reason) (w.lift (·.addError reason)) := by
  obtain ⟨file, errors, hsame, hagree, hon⟩ := h
  exact ⟨file, insert reason errors, congrArg (TraceWriter.addError reason) hsame,
    hagree.imp_left (congrArg (insert reason)), hon⟩

theorem Like.offer (h : Like v w) (text : Option (List Byte)) : Like (v.offer text) (w.lift (·.offer text)) := by
  obtain ⟨_, _, _, _, _, finished, _⟩ := v
  cases finished <;> exact h.lift (fun _ _ => rfl) rfl rfl rfl

theorem Like.writeMetadata (h : Like v w) (text : List Byte) :
    Like (v.writeMetadata dump text) (w.writeMetadata dump text) := by
  obtain ⟨_, _, _, enabled, accepting, finished, _⟩ := v
  cases enabled <;> cases accepting <;> cases finished <;> exact h.lift (fun _ _ => rfl) rfl rfl rfl

theorem Like.markCaptureError (h : Like v w) (reason : String) (droppedRecord : Bool) :
    Like (v.markCaptureError reason droppedRecord) (w.lift (·.markCaptureError reason droppedRecord)) := by
  have hmarked := h.addError reason
  cases droppedRecord with
  | false => exact hmarked
  | true =>
    exact hmarked.lift (f := fun v => { v.drop with reported := if v.finished then v.reported else v.reported + 1 })
      (fun _ _ => rfl) rfl rfl rfl

theorem Like.drop (h : Like v w) : Like v.drop (w.lift (·.drop)) :=
  h.lift (fun _ _ => rfl) rfl rfl rfl

theorem Like.finishErrors (h : Like v w) (synced kernelCompleted channelDrained : Bool) :
    Like (v.finishErrors synced kernelCompleted channelDrained)
      (w.lift (·.finishErrors synced kernelCompleted channelDrained)) := by
  obtain ⟨file, errors, hsame, hagree, hon⟩ := h
  obtain ⟨u, capacity, context, compressions, lost⟩ := w
  cases hsame
  cases synced
  · cases kernelCompleted <;> cases channelDrained <;> exact ⟨file, _, rfl, .inr rfl, nofun⟩
  · cases kernelCompleted <;> cases channelDrained <;>
      exact ⟨file, _, rfl, hagree.imp_left fun heq => by rw [heq]; rfl, hon⟩

/-- A batch is compressed, or not, as it is written plainly for some results of `write`. -/
theorem Like.writeCompressed (h : Like v w) (io : List WriteResult) :
    ∃ io', Like (v.flushLocked io') (w.writeCompressed z io) := by
  obtain ⟨file, errors, hsame, hagree, hon⟩ := h
  obtain ⟨u, capacity, context, compressions, lost⟩ := w
  cases hsame
  by_cases hidle : v.jsonBuffer = [] ∨ v.enabled = false
  · refine ⟨[], ?_⟩
    rw [TraceWriter.flushLocked, if_pos hidle, CompressedWriter.writeCompressed, if_pos]
    · exact ⟨file, errors, rfl, hagree, hon⟩
    · exact hidle.imp_right .inl
  obtain ⟨hbuffer, henabled⟩ := not_or.mp hidle
  obtain ⟨hopened, rfl⟩ := hon (Bool.not_eq_false _ ▸ henabled)
  obtain ⟨b, rest, hdata⟩ := List.exists_cons_of_ne_nil hbuffer
  have hopen : ¬v.opened = false := by simp [hopened]
  have hfailed : writeData [.failed] v.jsonBuffer = ⟨[], some false⟩ := by rw [hdata]; rfl
  rw [CompressedWriter.writeCompressed, if_neg (by simp [hbuffer, henabled])]
  simp only
  cases z.compress capacity v.jsonBuffer with
  | none =>
    refine ⟨[.failed], ?_⟩
    rw [TraceWriter.flushLocked, if_neg hidle, if_neg hopen, hfailed]
    exact ⟨file, _, rfl, .inr rfl, nofun⟩
  | some compressed =>
    simp only
    cases (writeData io compressed).result with
    | none =>
      have hnone : writeData [] v.jsonBuffer = ⟨[], none⟩ := by rw [hdata]; rfl
      refine ⟨[], ?_⟩
      rw [TraceWriter.flushLocked, if_neg hidle, if_neg hopen, hnone]
      exact ⟨_, errors, rfl, hagree, hon⟩
    | some success =>
      cases success with
      | true =>
        have hwrote : writeData [.wrote v.jsonBuffer.length] v.jsonBuffer = ⟨v.jsonBuffer, some true⟩ := by
          rw [hdata]
          simp [writeData]
        refine ⟨[.wrote v.jsonBuffer.length], ?_⟩
        rw [TraceWriter.flushLocked, if_neg hidle, if_neg hopen, hwrote]
        exact ⟨_, errors, rfl, hagree, hon⟩
      | false =>
        refine ⟨[.failed], ?_⟩
        rw [TraceWriter.flushLocked, if_neg hidle, if_neg hopen, hfailed]
        exact ⟨_, _, rfl, .inr rfl, nofun⟩

theorem Like.bufferRecord (h : Like v w) (text : List Byte) (io : List WriteResult) :
    ∃ io', Like (v.bufferRecord dump text io') (w.bufferRecord z dump text io) := by
  have happended : Like _ (w.appendRecord dump text) :=
    h.lift (f := fun v => { v.append dump (.record text) with bufferedTraceRecords := v.bufferedTraceRecords + 1 })
      (fun _ _ => rfl) rfl rfl rfl
  obtain ⟨io', hwritten⟩ := happended.writeCompressed z io
  have hthreshold := happended.same TraceWriter.bufferThreshold fun _ _ => rfl
  have hbuffer := happended.same TraceWriter.jsonBuffer fun _ _ => rfl
  exact ⟨io', .ite (by rw [hthreshold, hbuffer]) hwritten happended⟩

theorem Like.writeJsonFormat (h : Like v w) (text : Option (List Byte)) (io : List WriteResult) :
    ∃ io', Like (v.writeJsonFormat dump text io') (w.writeJsonFormat z dump text io) := by
  cases text with
  | none => exact ⟨io, ((h.addError _).addError _).drop⟩
  | some text => exact h.bufferRecord z dump text io

theorem Like.writeTrace (h : Like v w) (text : Option (List Byte)) (identified : Bool) (io : List WriteResult) :
    ∃ io', Like (v.writeTrace dump text identified io') (w.writeTrace z dump text identified io) := by
  have hoffered := h.offer text
  have hidentified :
      Like (if identified then v.offer text else (v.offer text).addError "missing_instruction_identity")
        ((w.lift (·.offer text)).lift fun v =>
          if identified then v else v.addError "missing_instruction_identity") := by
    cases identified
    exacts [hoffered.addError _, hoffered]
  obtain ⟨io', hwritten⟩ := hidentified.writeJsonFormat z dump text io
  exact ⟨io', .ite (by rw [hoffered.same TraceWriter.finished fun _ _ => rfl]) hoffered
    (.ite (by rw [hoffered.same TraceWriter.isEnabled fun _ _ => rfl]) hoffered.drop hwritten)⟩

theorem Like.writeEncodedRecord (h : Like v w) (text : List Byte) (io : List WriteResult) :
    ∃ io', Like (v.writeEncodedRecord dump text io') (w.writeEncodedRecord z dump text io) := by
  have hoffered := h.offer (some text)
  obtain ⟨io', hwritten⟩ := hoffered.bufferRecord z dump text io
  have hfinished := hoffered.same TraceWriter.finished fun _ _ => rfl
  have henabled := hoffered.same TraceWriter.isEnabled fun _ _ => rfl
  exact ⟨io', .ite (by rw [hfinished, henabled]) (hoffered.drop.addError _) hwritten⟩

theorem Like.disable (h : Like v w) (io : List WriteResult) :
    ∃ io', Like (v.disable io') (w.disable z io) := by
  obtain ⟨io', hflushed⟩ := (h.addError "trace_disabled").writeCompressed z io
  exact ⟨io', .ite (by rw [hflushed.same TraceWriter.stuck fun _ _ => rfl]) hflushed
    (hflushed.lift (f := fun v => { v with acceptingRecords := false }) (fun _ _ => rfl) rfl rfl rfl)⟩

/-- As long as nothing was lost, the closing lines are the same. -/
theorem Like.writeFooter (h : Like v w) (launchId : ℕ) (completed drained : Bool)
    (footer : List WriteResult) :
    ∃ footer', Like
      (if v.enabled = false then v
      else (v.append dump (.completion (v.completion launchId completed drained))).flushLocked footer')
      (if w.enabled = false then w
      else (w.lift fun v => v.append dump (.completion (v.completion launchId completed drained))).writeCompressed
        z footer) := by
  rw [h.same TraceWriter.enabled fun _ _ => rfl]
  cases henabled : v.enabled with
  | false => exact ⟨[], h⟩
  | true =>
    obtain ⟨file, errors, hsame, hagree, hon⟩ := h
    obtain ⟨u, capacity, context, compressions, lost⟩ := w
    cases hsame
    obtain rfl : errors = v.captureErrors := hagree.resolve_right (by simp [henabled])
    have hclosing : Like (v.append dump (.completion (v.completion launchId completed drained)))
        (CompressedWriter.lift (fun v => v.append dump (.completion (v.completion launchId completed drained)))
          { { v with file := file } with capacity, zstdCtx := context, compressions, lostToSpace := lost }) :=
      ⟨file, _, rfl, .inl rfl, hon⟩
    exact hclosing.writeCompressed z footer

theorem Like.finish (h : Like v w) (launchId : ℕ) (completed drained : Bool) (io : List WriteResult)
    (synced : Bool) (footer : List WriteResult) :
    ∃ io' footer', Like (v.finish dump launchId completed drained io' synced footer')
      (w.finish z dump launchId completed drained io synced footer) := by
  obtain ⟨io', hflushed⟩ := h.writeCompressed z io
  have hfinished := hflushed.finishErrors (synced || !(w.writeCompressed z io).opened) completed drained
  obtain ⟨footer', hclosed⟩ := hfinished.writeFooter z dump launchId completed drained footer
  rw [hflushed.same TraceWriter.opened fun _ _ => rfl] at hclosed
  refine ⟨io', footer', .ite (by rw [h.same TraceWriter.finished fun _ _ => rfl]) h
    (.ite (by rw [hflushed.same TraceWriter.stuck fun _ _ => rfl]) hflushed ?_)⟩
  rw [hflushed.same TraceWriter.opened fun _ _ => rfl]
  exact hclosed

theorem Like.step (h : Like v w) (call : Call) :
    ∃ call', asked call' = asked call ∧ Like (Writer.step dump v call') (step z dump w call) := by
  have hstuck := h.same TraceWriter.stuck fun _ _ => rfl
  cases call with
  | writeMetadata text =>
    exact ⟨.writeMetadata text, rfl, .ite (by rw [hstuck]) h (h.writeMetadata dump text)⟩
  | writeEncodedRecord text io =>
    obtain ⟨io', hwritten⟩ := h.writeEncodedRecord z dump text io
    exact ⟨.writeEncodedRecord text io', rfl, .ite (by rw [hstuck]) h hwritten⟩
  | writeTrace text identified io =>
    obtain ⟨io', hwritten⟩ := h.writeTrace z dump text identified io
    exact ⟨.writeTrace text identified io', rfl, .ite (by rw [hstuck]) h hwritten⟩
  | flush io =>
    obtain ⟨io', hwritten⟩ := h.writeCompressed z io
    exact ⟨.flush io', rfl, .ite (by rw [hstuck]) h hwritten⟩
  | disable io =>
    obtain ⟨io', hdisabled⟩ := h.disable z io
    exact ⟨.disable io', rfl, .ite (by rw [hstuck]) h hdisabled⟩
  | markCaptureError reason droppedRecord =>
    exact ⟨.markCaptureError reason droppedRecord, rfl,
      .ite (by rw [hstuck]) h (h.markCaptureError reason droppedRecord)⟩
  | finish launchId completed drained io synced footer =>
    obtain ⟨io', footer', hfinished⟩ := h.finish z dump launchId completed drained io synced footer
    exact ⟨.finish launchId completed drained io' synced footer', rfl, .ite (by rw [hstuck]) h hfinished⟩

theorem Like.run (h : Like v w) (calls : List Call) :
    ∃ calls', calls'.map asked = calls.map asked ∧ Like (Writer.run dump v calls') (run z dump w calls) := by
  induction calls generalizing v w with
  | nil => exact ⟨[], rfl, h⟩
  | cons call calls ih =>
    obtain ⟨call', hcall, hstep⟩ := h.step z dump call
    obtain ⟨calls', hcalls, hrun⟩ := ih hstep
    exact ⟨call' :: calls', by rw [List.map_cons, List.map_cons, hcall, hcalls], hrun⟩

theorem like_create (opened context : Bool) (threshold : ℕ) :
    Like (.create (opened && context) threshold) (create z opened context threshold) := by
  cases opened <;> cases context <;> exact ⟨[], ∅, rfl, .inl rfl, by simp [create, TraceWriter.create]⟩

/-- A compressed writer goes through the states of a plain one that is called for the same
things, up to the bytes of the file. So it hangs where that does, and what holds of the lines
of every plain run holds of its lines. -/
theorem run_like (opened context : Bool) (threshold : ℕ)
    (calls : List Call) :
    ∃ calls', calls'.map asked = calls.map asked ∧
      Like (Writer.run dump (.create (opened && context) threshold) calls')
        (run z dump (create z opened context threshold) calls) :=
  (like_create z opened context threshold).run z dump calls

/-- So its closing line is as truthful about the lines before it. -/
theorem truthful_run (opened context : Bool) (threshold : ℕ)
    (calls : List Call) :
    let w := run z dump (create z opened context threshold) calls
    Truthful w.lines w.offered := by
  intro w
  obtain ⟨calls', -, hlike⟩ := run_like z dump opened context threshold calls
  rw [hlike.same TraceWriter.lines fun _ _ => rfl, hlike.same TraceWriter.offered fun _ _ => rfl]
  obtain hopen | hclosed :=
    run_open_or_closed (.inl (open_create (opened && context) threshold)) calls'
  · exact .inl hopen.noFooter
  · exact hclosed.truthful

end

/-! ### zstd's bound -/

/-- `ZSTD_COMPRESSBOUND` of zstd's header. -/
def zstdBound (size : ℕ) : ℕ :=
  size + size / 256 + if size < 131072 then (131072 - size) / 2048 else 0

/-- From a threshold of 128 KiB on, a batch has room exactly if it is no larger. -/
theorem zstdBound_le_iff {size threshold : ℕ} (h : 131072 ≤ threshold) :
    zstdBound size ≤ zstdBound threshold ↔ size ≤ threshold := by
  unfold zstdBound
  split_ifs <;> omega

/-- There the condition on a batch is one on the lengths of its lines. -/
theorem room_iff_length {z : Zstd} (hz : z.compressBound = zstdBound) {w : CompressedWriter}
    (h : 131072 ≤ w.bufferThreshold) (lines : List Line) (dump : Completion → List Byte) :
    Room z w (bytes dump lines).length ↔
      (lines.map fun line => (line.text dump).length + 1).sum ≤ w.bufferThreshold := by
  have hlength : (bytes dump lines).length = (lines.map fun line => (line.text dump).length + 1).sum := by
    simp [bytes, List.length_flatMap, Line.bytes]
  rw [Room, hz, zstdBound_le_iff h, hlength]

/-- A frame with one stored block, which is what zstd makes of a few bytes. -/
def storedFrame (data : List Byte) : List Byte :=
  [0x28, 0xb5, 0x2f, 0xfd, 0x20, UInt8.ofNat data.length, UInt8.ofNat (8 * data.length + 1), 0, 0] ++ data

def storing : Zstd where
  compressBound := zstdBound
  compress capacity data :=
    if (storedFrame data).length ≤ capacity then some (storedFrame data) else none

theorem storing_reliable : storing.Reliable := by
  intro capacity data hbound
  have hframe : (storedFrame data).length ≤ capacity := by
    refine le_trans ?_ hbound
    show (storedFrame data).length ≤ zstdBound data.length
    rw [storedFrame, List.length_append, zstdBound]
    simp only [List.length_cons, List.length_nil]
    split_ifs <;> omega
  show (if _ then _ else _ : Option (List Byte)).isSome = true
  rw [if_pos hframe]
  rfl

/-- A metadata line, a record that fills the buffer to the threshold, and the last line. -/
def fittingCalls : List Call :=
  [.writeMetadata [77], .writeTrace (some [65, 65]) true [.wrote 14],
    .finish 7 true true [] true [.wrote 14]]

theorem run_has_space_small :
    let w := run storing sampleDump (create storing true true 5) fittingCalls
    w.compressions.length = 2 ∧ w.lostToSpace = 0 := by
  have hfits : FitsAll storing sampleDump (create storing true true 5) fittingCalls := by
    refine ⟨trivial, ?_, ?_, trivial⟩
    · rintro t ht - - -
      cases ht
      exact le_refl _
    · refine fun _ => ⟨fun _ hbuffer => absurd rfl hbuffer, fun _ => ?_⟩
      show zstdBound _ ≤ zstdBound 5
      decide +kernel
  exact ⟨by decide +kernel, (run_has_space storing_reliable sampleDump true true 5 hfits).2⟩

/-- A kernel's metadata, with two megabytes of code text. -/
def longMetadata : List Byte :=
  [123, 34, 115, 97, 115, 115, 34, 58, 34] ++ List.replicate 2097152 97 ++ [34, 125]

theorem length_longMetadata : longMetadata.length = 2097163 := by
  rw [longMetadata, List.length_append, List.length_append, List.length_replicate]
  rfl

/-- Metadata of any length is compressed at the next flush, into the same destination. -/
theorem mem_compressions_metadata (z : Zstd) (dump : Completion → List Byte) (threshold : ℕ)
    (text : List Byte) (io : List WriteResult) :
    ⟨z.compressBound threshold, text.length + 1⟩ ∈ (run z dump (create z true true threshold)
      [.writeMetadata text, .flush io]).compressions := by
  have hlength : (text ++ [newline]).length = text.length + 1 := List.length_append
  rw [← hlength]
  exact mem_compressions_writeCompressed (z := z)
    (w := (create z true true threshold).writeMetadata dump text) rfl rfl (by
      show text ++ [newline] ≠ []
      simp) io

theorem long_metadata_has_no_room :
    ¬∀ (threshold : ℕ) (calls : List Call),
      ∀ c ∈ (run storing sampleDump (create storing true true threshold) calls).compressions,
        storing.compressBound c.size ≤ c.capacity := by
  intro h
  have hroom := h 1048576 _ _
    (mem_compressions_metadata storing sampleDump 1048576 longMetadata [.wrote 4194304])
  rw [length_longMetadata] at hroom
  have hthreshold : 131072 ≤ 1048576 := by omega
  have hle : 2097163 + 1 ≤ 1048576 := (zstdBound_le_iff hthreshold).mp hroom
  omega

end CuTracer.Capture.Compressed
