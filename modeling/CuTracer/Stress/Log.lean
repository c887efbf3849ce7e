import CuTracer.Stress.Artifacts
import Mathlib.Data.List.Infix

/-! The log of a search, part after part. A call that fails leaves the log as it was, as long as it
learnt the size to roll back to: a size lookup that fails makes an append cut the log to nothing. -/

namespace CuTracer.Stress

/-- The files, and the `log_path` of the loop, which is `None` until there is a log. -/
structure LogState where
  logs : Logs
  logPath : Option Path

/-- A part to write, and what goes wrong. -/
structure LogCall where
  part : String
  fault : Option LogFault

/-- A call as the loop makes it: it appends once there is a log. -/
def LogState.write (outputDir : String) (s : LogState) (c : LogCall) : LogState × Except StressError ℕ :=
  match writeStressLog outputDir c.fault c.part s.logPath.isSome s.logs with
  | (logs, .ok (path, size)) => (⟨logs, some path⟩, .ok size)
  | (logs, .error e) => (⟨logs, s.logPath⟩, .error e)

/-- The state after some calls. A call after a failed one starts from what that one left. -/
def LogState.after (outputDir : String) (s : LogState) (calls : List LogCall) : LogState :=
  calls.foldl (fun s c => (s.write outputDir c).1) s

/-- The bytes of the log; an absent file counts as empty. -/
def LogState.content (outputDir : String) (s : LogState) : Bytes :=
  (s.logs (stressLogPath outputDir)).getD []

/-- A call that fails leaves the log as it was, and one that returns adds its part and tells the size. -/
def LogCall.Atomic (outputDir : String) (s : LogState) (c : LogCall) : Prop :=
  match s.write outputDir c with
  | (s', .error _) => s'.content outputDir = s.content outputDir
  | (s', .ok size) =>
    s'.logs (stressLogPath outputDir) = some (s.content outputDir ++
      encode ((if s.content outputDir = [] then "" else "\n") ++ c.part)) ∧
    size = (s'.content outputDir).length

/-- The call does not fail to look up the size of a log that has something in it. -/
def LogCall.KnowsSize (outputDir : String) (s : LogState) (c : LogCall) : Prop :=
  ∀ fault, c.fault = some fault → fault.step = .sizeLookup → s.logPath.isSome →
    s.content outputDir = []

def LogCall.RollsBack (c : LogCall) : Prop := ∀ fault, c.fault = some fault → fault.rollbackFails = false

/-- There is a `log_path` as long as there is a log. -/
def LogState.Tracked (outputDir : String) (s : LogState) : Prop :=
  s.logPath.isSome = (s.logs (stressLogPath outputDir)).isSome

variable {outputDir : String} {s : LogState} {c : LogCall}

theorem payload_eq (old : Bytes) (part : String) :
    logPayload old.length part = encode ((if old = [] then "" else "\n") ++ part) := by
  simp only [logPayload, List.length_eq_zero_iff]

/-- A log that is started is written, or it is not there. -/
theorem startStressLog_cases (part : String) {fault : Option LogFault}
    (hrolls : ∀ f, fault = some f → f.rollbackFails = false) :
    startStressLog fault none part = (some (encode part), .ok (encode part).length) ∨
      ∃ e, startStressLog fault none part = (none, .error e) := by
  have hpayload : logPayload 0 part = encode part := by simp [logPayload]
  cases fault with
  | none => exact .inl (by rw [startStressLog, hpayload])
  | some f =>
    obtain ⟨step, message, fails⟩ := f
    obtain rfl : fails = false := hrolls _ rfl
    cases step with
    | sizeLookup => exact .inl (by rw [startStressLog, hpayload])
    | openFile => exact .inr ⟨_, rfl⟩
    | fsync => exact .inr ⟨_, rfl⟩
    | fsyncDirectory => exact .inr ⟨_, rfl⟩
    | write n => exact .inr ⟨_, rfl⟩

/-- A log that is appended to has the part added or is as it was. -/
theorem appendStressLog_cases (old : Bytes) (part : String) {fault : Option LogFault}
    (hrolls : ∀ f, fault = some f → f.rollbackFails = false)
    (hsize : ∀ f, fault = some f → f.step ≠ .sizeLookup) :
    appendStressLog fault (some old) part = (some (old ++ logPayload old.length part),
        .ok (old ++ logPayload old.length part).length) ∨
      ∃ e, appendStressLog fault (some old) part = (some old, .error e) := by
  cases fault with
  | none => exact .inl rfl
  | some f =>
    obtain ⟨step, message, fails⟩ := f
    obtain rfl : fails = false := hrolls _ rfl
    cases step with
    | sizeLookup => exact absurd rfl (hsize _ rfl)
    | openFile => exact .inr ⟨_, rfl⟩
    | fsync => exact .inr ⟨_, rfl⟩
    | fsyncDirectory => exact .inl rfl
    | write n => exact .inr ⟨_, rfl⟩

/-- A lookup that fails makes the rollback cut the log to nothing. -/
theorem appendStressLog_sizeLookup (old : Bytes) (part : String) {f : LogFault}
    (hrolls : f.rollbackFails = false) (hsize : f.step = .sizeLookup) :
    appendStressLog (some f) (some old) part = (some [], .error (.osError f.message)) := by
  obtain ⟨step, message, fails⟩ := f
  obtain rfl : step = .sizeLookup := hsize
  obtain rfl : fails = false := hrolls
  rfl

def LogState.writeBytes (outputDir : String) (s : LogState) (c : LogCall) :
    Option Bytes × Except StressError ℕ :=
  if s.logPath.isSome then appendStressLog c.fault (s.logs (stressLogPath outputDir)) c.part
  else startStressLog c.fault (s.logs (stressLogPath outputDir)) c.part

theorem write_ok {log : Option Bytes} {size : ℕ} (h : s.writeBytes outputDir c = (log, .ok size)) :
    s.write outputDir c =
      (⟨Function.update s.logs (stressLogPath outputDir) log, some (stressLogPath outputDir)⟩, .ok size) := by
  unfold LogState.writeBytes at h
  unfold LogState.write writeStressLog
  simp only [h]

theorem write_error {log : Option Bytes} {e : StressError}
    (h : s.writeBytes outputDir c = (log, .error e)) :
    s.write outputDir c = (⟨Function.update s.logs (stressLogPath outputDir) log, s.logPath⟩, .error e) := by
  unfold LogState.writeBytes at h
  unfold LogState.write writeStressLog
  simp only [h]

/-- One call: it is atomic exactly if it knows the size, and then it removes nothing. -/
structure LogCall.Step (outputDir : String) (s : LogState) (c : LogCall) : Prop where
  tracked : (s.write outputDir c).1.Tracked outputDir
  atomic : c.Atomic outputDir s ↔ c.KnowsSize outputDir s
  grows : c.KnowsSize outputDir s → s.content outputDir <+: (s.write outputDir c).1.content outputDir

theorem LogCall.step_start (hlog : s.logs (stressLogPath outputDir) = none) (htracked : s.Tracked outputDir)
    (hrolls : c.RollsBack) : c.Step outputDir s := by
  have hpath : s.logPath.isSome = false := by rw [htracked, hlog]; rfl
  have hcontent : s.content outputDir = [] := by rw [LogState.content, hlog]; rfl
  have hknows : c.KnowsSize outputDir s := fun _ _ _ _ => hcontent
  have hbytes : s.writeBytes outputDir c = startStressLog c.fault none c.part := by
    rw [LogState.writeBytes, hpath, hlog]
    rfl
  obtain hwrite | ⟨e, hwrite⟩ := startStressLog_cases c.part hrolls
  · have h := write_ok (hbytes.trans hwrite)
    refine ⟨by simp [h, LogState.Tracked], ?_, fun _ => by simp [hcontent]⟩
    simp [LogCall.Atomic, h, hknows, LogState.content, hlog]
  · have h := write_error (hbytes.trans hwrite)
    have hpath : s.logPath = none := by simpa using hpath
    refine ⟨by simp [h, LogState.Tracked, hpath], ?_, fun _ => by simp [hcontent]⟩
    simp [LogCall.Atomic, h, hknows, LogState.content, hlog]

theorem LogCall.step_append {old : Bytes} (hlog : s.logs (stressLogPath outputDir) = some old)
    (htracked : s.Tracked outputDir) (hrolls : c.RollsBack) : c.Step outputDir s := by
  have hpath : s.logPath.isSome := by rw [htracked, hlog]; rfl
  have hcontent : s.content outputDir = old := by rw [LogState.content, hlog]; rfl
  have hbytes : s.writeBytes outputDir c = appendStressLog c.fault (some old) c.part := by
    rw [LogState.writeBytes, hpath, hlog]
    rfl
  by_cases hlookup : ∃ f, c.fault = some f ∧ f.step = .sizeLookup
  · obtain ⟨f, hf, hstep⟩ := hlookup
    have hknows : c.KnowsSize outputDir s ↔ old = [] := by
      simp only [LogCall.KnowsSize, hf, Option.some.injEq, forall_eq', hstep, hpath, true_implies, hcontent]
    have h := write_error (hbytes.trans (hf ▸ appendStressLog_sizeLookup old c.part (hrolls f hf) hstep))
    refine ⟨by simp [h, LogState.Tracked, hpath], ?_, fun hk => by simp [hcontent, hknows.mp hk]⟩
    rw [hknows, LogCall.Atomic, h]
    simp only [LogState.content, Function.update_self, Option.getD_some, hlog]
    exact eq_comm
  · have hsize : ∀ f, c.fault = some f → f.step ≠ .sizeLookup := fun f hf hstep => hlookup ⟨f, hf, hstep⟩
    have hknows : c.KnowsSize outputDir s := fun f hf hstep _ => absurd hstep (hsize f hf)
    obtain hwrite | ⟨e, hwrite⟩ := appendStressLog_cases old c.part hrolls hsize
    · have h := write_ok (hbytes.trans hwrite)
      refine ⟨by simp [h, LogState.Tracked], ?_, fun _ => ?_⟩
      · simp [LogCall.Atomic, h, hknows, LogState.content, hlog, payload_eq]
      · simp [h, LogState.content, hlog]
    · have h := write_error (hbytes.trans hwrite)
      refine ⟨by simp [h, LogState.Tracked, hpath], ?_, fun _ => ?_⟩
      · simp [LogCall.Atomic, h, hknows, LogState.content, hlog]
      · simp [h, LogState.content, hlog]

theorem LogCall.step (htracked : s.Tracked outputDir) (hrolls : c.RollsBack) : c.Step outputDir s := by
  cases hlog : s.logs (stressLogPath outputDir) with
  | none => exact LogCall.step_start hlog htracked hrolls
  | some old => exact LogCall.step_append hlog htracked hrolls

/-! ### Sequences of calls -/

/-- `_prepare_stress_log` leaves a `log_path` exactly if it leaves a log. -/
theorem tracked_prepared {resume : Option StressResult} {logs logs' : Logs} {logPath : Option Path} {size : ℤ}
    (h : prepareStressLog outputDir resume logs = (logs', .ok (logPath, size))) :
    LogState.Tracked outputDir ⟨logs', logPath⟩ := by
  have hfresh : (Function.update logs (stressLogPath outputDir) none,
      (.ok (none, 0) : Except StressError (Option Path × ℤ))) = (logs', .ok (logPath, size)) →
      LogState.Tracked outputDir ⟨logs', logPath⟩ := by
    intro h
    obtain ⟨rfl, hok⟩ := Prod.mk.inj h
    obtain ⟨rfl, -⟩ := Prod.mk.inj (Except.ok.inj hok)
    simp [LogState.Tracked]
  unfold prepareStressLog at h
  cases resume with
  | none => exact hfresh h
  | some r =>
    simp only at h
    split_ifs at h with hattempted
    · exact hfresh h
    · cases hpath : r.logPath with
      | none => simp [hpath] at h
      | some source =>
        cases hsource : logs source with
        | none => simp [hpath, hsource] at h
        | some bytes =>
          simp only [hpath, hsource] at h
          split_ifs at h
          · simp at h
          · obtain ⟨rfl, hok⟩ := Prod.mk.inj h
            obtain ⟨rfl, -⟩ := Prod.mk.inj (Except.ok.inj hok)
            simp [LogState.Tracked]

/-- The log at each call of a sequence. -/
def LogState.AtEachCall (outputDir : String) (s : LogState) (calls : List LogCall)
    (P : LogState → LogCall → Prop) : Prop :=
  ∀ before c later, calls = before ++ c :: later → P (s.after outputDir before) c

theorem tracked_after (htracked : s.Tracked outputDir) {calls : List LogCall}
    (hrolls : ∀ c ∈ calls, c.RollsBack) : (s.after outputDir calls).Tracked outputDir := by
  induction calls generalizing s with
  | nil => exact htracked
  | cons c calls ih =>
    rw [List.forall_mem_cons] at hrolls
    exact ih (LogCall.step htracked hrolls.1).tracked hrolls.2

theorem after_append (before later : List LogCall) :
    s.after outputDir (before ++ later) = (s.after outputDir before).after outputDir later :=
  List.foldl_append

/-- Calls that know the size remove nothing. -/
theorem content_prefix (htracked : s.Tracked outputDir) {calls : List LogCall}
    (hrolls : ∀ c ∈ calls, c.RollsBack)
    (hknows : s.AtEachCall outputDir calls fun s c => c.KnowsSize outputDir s) :
    s.content outputDir <+: (s.after outputDir calls).content outputDir := by
  induction calls generalizing s with
  | nil => exact List.prefix_rfl
  | cons c calls ih =>
    rw [List.forall_mem_cons] at hrolls
    have hstep := LogCall.step htracked hrolls.1
    refine (hstep.grows (hknows [] c calls rfl)).trans (ih hstep.tracked hrolls.2 ?_)
    rintro before d later rfl
    exact hknows (c :: before) d later rfl

/-- After a preparation every call of a sequence is atomic exactly if every one knows the size of the
log, and then no call removes anything. -/
theorem stress_log_atomic (outputDir : String) (resume : Option StressResult) (logs logs' : Logs)
    (logPath : Option Path) (size : ℤ) (calls : List LogCall)
    (hprepared : prepareStressLog outputDir resume logs = (logs', .ok (logPath, size)))
    (hrolls : ∀ c ∈ calls, c.RollsBack) :
    (LogState.AtEachCall outputDir ⟨logs', logPath⟩ calls (fun s c => c.Atomic outputDir s) ↔
      LogState.AtEachCall outputDir ⟨logs', logPath⟩ calls fun s c => c.KnowsSize outputDir s) ∧
    (LogState.AtEachCall outputDir ⟨logs', logPath⟩ calls (fun s c => c.KnowsSize outputDir s) →
      ∀ before later, calls = before ++ later →
        (LogState.after outputDir ⟨logs', logPath⟩ before).content outputDir <+:
          (LogState.after outputDir ⟨logs', logPath⟩ calls).content outputDir) := by
  have htracked := tracked_prepared hprepared
  have hstep : ∀ before c later, calls = before ++ c :: later →
      c.Step outputDir (LogState.after outputDir ⟨logs', logPath⟩ before) := by
    rintro before c later rfl
    exact LogCall.step (tracked_after htracked fun d hd => hrolls d (by simp [hd])) (hrolls c (by simp))
  refine ⟨⟨fun h before c later hsplit => ?_, fun h before c later hsplit => ?_⟩, ?_⟩
  · exact (hstep before c later hsplit).atomic.mp (h before c later hsplit)
  · exact (hstep before c later hsplit).atomic.mpr (h before c later hsplit)
  · rintro hknows before later rfl
    rw [after_append]
    refine content_prefix (tracked_after htracked fun d hd => hrolls d (by simp [hd]))
      (fun d hd => hrolls d (by simp [hd])) ?_
    rintro before' d later' rfl
    rw [← after_append]
    exact hknows (before ++ before') d later' (by simp)

/-- A first part, a second one that does not fit and is rolled back, and the second one again. -/
def rolledBackLog : List LogCall :=
  [⟨"first", none⟩, ⟨"second", some ⟨.write 2, "No space left on device", false⟩⟩, ⟨"second", none⟩]

theorem stress_log_atomic_rolled_back :
    LogState.AtEachCall "out" ⟨fun _ => none, none⟩ rolledBackLog (fun s c => c.Atomic "out" s) ∧
      (LogState.after "out" ⟨fun _ => none, none⟩ (rolledBackLog.take 2)).content "out" = encode "first" ∧
      encode "first" <+: (LogState.after "out" ⟨fun _ => none, none⟩ rolledBackLog).content "out" := by
  have hcontent : (LogState.after "out" ⟨fun _ => none, none⟩ (rolledBackLog.take 2)).content "out" =
      encode "first" := rfl
  have hknows : LogState.AtEachCall "out" ⟨fun _ => none, none⟩ rolledBackLog fun s c =>
      c.KnowsSize "out" s := by
    rintro before c later hsplit f hf hstep -
    have hc : c ∈ rolledBackLog := hsplit ▸ by simp
    simp only [rolledBackLog, List.mem_cons, List.not_mem_nil, or_false] at hc
    obtain rfl | rfl | rfl := hc <;> cases hf
    cases hstep
  have hatomic := stress_log_atomic "out" none (fun _ => none) (fun _ => none) none 0 rolledBackLog
    (by simp [prepareStressLog]) (by simp [rolledBackLog, LogCall.RollsBack])
  refine ⟨hatomic.1.mpr hknows, hcontent, ?_⟩
  rw [← hcontent]
  exact hatomic.2 hknows (rolledBackLog.take 2) (rolledBackLog.drop 2) rfl

def lostLog : List LogCall := [⟨"first", none⟩, ⟨"second", some ⟨.sizeLookup, "Input/output error", false⟩⟩]

/-- The failed call removes the first part. -/
theorem failed_append_removes_log :
    ¬∀ (outputDir : String) (resume : Option StressResult) (logs logs' : Logs) (logPath : Option Path)
      (size : ℤ) (calls : List LogCall),
      prepareStressLog outputDir resume logs = (logs', .ok (logPath, size)) →
      (∀ c ∈ calls, c.RollsBack) →
      LogState.AtEachCall outputDir ⟨logs', logPath⟩ calls fun s c => c.Atomic outputDir s := by
  intro h
  have hatomic : ([] : Bytes) = encode "first" :=
    h "out" none (fun _ => none) (fun _ => none) none 0 lostLog (by simp [prepareStressLog])
      (by simp [lostLog, LogCall.RollsBack]) [⟨"first", none⟩] _ [] rfl
  exact absurd hatomic (by decide)

end CuTracer.Stress
