import CuTracer.Library.JsonTree

/-! The delay config file that all processes of a run share. A process merges its config
into the file under a lock: it reads the kernels of the file, adds its own, writes a
temporary file and renames it. Every access to a file is a step, and the steps of all calls
interleave. The text of a document is not code of the repository and stands as a parameter. -/

namespace CuTracer.Delay

open Json (field setField)

abbrev Fields := List (String × Json)

section Merge

variable (parse : String → Option Json)

/-! ### One merge -/

/-- The values that tell the runs apart, each null if it is missing. -/
def runOf (fields : Fields) : List Json :=
  ["version", "seed", "delay_ns"].map fun key => (field fields key).getD .null

def sameRun (existing : Json) (config : Fields) : Bool :=
  match existing with
  | .obj fields => runOf fields = runOf config
  | _ => false

/-- The kernels of a document, none if they are no object. -/
def kernelsOf (existing : Json) : Fields :=
  match existing with
  | .obj fields =>
    match field fields "kernels" with
    | some (.obj kernels) => kernels
    | _ => []
  | _ => []

/-- The document in a file; a text that does not parse is no object. -/
def document (text : String) : Json := (parse text).getD .null

def sameRunKernels (file : Option String) (config : Fields) : Fields :=
  match file with
  | none => []
  | some text =>
    if sameRun (document parse text) config then kernelsOf (document parse text) else []

/-- `value.items()`. -/
def items : Json → Fields
  | .obj fields => fields
  | .arr values => (values.zipIdx.map fun p => (toString p.2, p.1))
  | .null => []
  | value => [("", value)]

def own (config : Fields) : Fields := items ((field config "kernels").getD (.obj []))

def addKernels (config kernels : Fields) : Fields :=
  (own config).foldl (fun kernels f => setField f.1 f.2 kernels) kernels

def merged (config kernels : Fields) : Json := .obj (setField "kernels" (.obj kernels) config)

end Merge

/-- A call with nobody else at the file. -/
def mergeDelayConfigFile (dump : Json → String) (parse : String → Option Json) (config : Fields)
    (file : Option String) : Option String :=
  if (own config).isEmpty ∧ file.isSome then file
  else some (dump (merged config (addKernels config (sameRunKernels parse file config))))

/-! ### Processes -/

/-- A call of `merge_delay_config_file`. -/
structure Call where
  process : ℕ
  config : Fields

/-- What a call has done, from the lock to its release. -/
inductive Stage where
  | waiting
  | locked
  | reading
  | read (kernels : Fields)
  | opened (doc : Json)
  | written (doc : Json)
  | leaving
  | done

/-- A call that took effect, with the file before and after it. -/
structure Commit where
  call : ℕ
  before : Option String
  after : Option String

structure System where
  file : Option String
  temporary : ℕ → Option String := fun _ => none
  lock : Option ℕ := none
  stage : ℕ → Stage := fun _ => .waiting
  commits : List Commit := []
  written : List Json := []

def System.advance (t : ℕ) (stage : Stage) (s : System) : System :=
  { s with stage := Function.update s.stage t stage }

def System.commit (t : ℕ) (file : Option String) (s : System) : System :=
  { s with file, commits := s.commits ++ [⟨t, s.file, file⟩] }

section System

variable (dump : Json → String) (parse : String → Option Json) (calls : List Call)

/-- The next step of a call, if it can go on: the lock is held by one call at a time. -/
def step (t : ℕ) (s : System) : Option System :=
  match calls[t]? with
  | none => none
  | some call =>
    match s.stage t with
    | .waiting =>
      if s.lock = none then some ({ s with lock := some t }.advance t .locked) else none
    | .locked =>
      -- a config without kernels leaves an existing file alone
      if (own call.config).isEmpty ∧ s.file.isSome then
        some ((s.commit t s.file).advance t .leaving)
      else some (s.advance t .reading)
    | .reading =>
      some (s.advance t
        (.read (addKernels call.config (sameRunKernels parse s.file call.config))))
    | .read kernels =>
      some ({ s with temporary := Function.update s.temporary call.process (some "") }.advance t
        (.opened (merged call.config kernels)))
    | .opened doc =>
      some ({ s with
        temporary := Function.update s.temporary call.process (some (dump doc))
        written := s.written ++ [doc] }.advance t (.written doc))
    | .written _ =>
      match s.temporary call.process with
      | none => none
      | some text =>
        some (({ s with temporary := Function.update s.temporary call.process none }.commit t
          (some text)).advance t .leaving)
    | .leaving => some ({ s with lock := none }.advance t .done)
    | .done => none

def run (schedule : List ℕ) (s : System) : Option System :=
  schedule.foldlM (fun s t => step dump parse calls t s) s

end System

/-! ### Mutual exclusion -/

/-- The stages between the lock and its release. -/
def Stage.busy : Stage → Bool
  | .waiting => false
  | .done => false
  | _ => true

def Stage.effective : Stage → Bool
  | .leaving => true
  | .done => true
  | _ => false

def Leaves (config : Fields) (file : Option String) : Prop :=
  (own config).isEmpty ∧ file.isSome

section Invariant

variable (dump : Json → String) (parse : String → Option Json) (calls : List Call)

def mergedFile (config : Fields) (file : Option String) : Json :=
  merged config (addKernels config (sameRunKernels parse file config))

/-- The effect of one call on the file. -/
def Merges (config : Fields) (written : List Json) (before after : Option String) : Prop :=
  Leaves config before ∧ after = before ∨
    ¬Leaves config before ∧ after = some (dump (mergedFile parse config before)) ∧
      mergedFile parse config before ∈ written

/-- What a call found out since it holds the lock is still so. -/
def Progress (call : Call) (s : System) : Stage → Prop
  | .reading => ¬Leaves call.config s.file
  | .read kernels => ¬Leaves call.config s.file ∧
    kernels = addKernels call.config (sameRunKernels parse s.file call.config)
  | .opened doc => ¬Leaves call.config s.file ∧ doc = mergedFile parse call.config s.file
  | .written doc => ¬Leaves call.config s.file ∧ doc = mergedFile parse call.config s.file ∧
    s.temporary call.process = some (dump doc) ∧ doc ∈ s.written
  | _ => True

/-- Every commit starts from the file that the last one left. -/
def Linked : Option String → List Commit → Option String → Prop
  | file, [], last => file = last
  | file, c :: cs, last => c.before = file ∧ Linked c.after cs last

structure Serial (file : Option String) (s : System) : Prop where
  holder : ∀ t, (s.stage t).busy → s.lock = some t
  progress : ∀ t call, calls[t]? = some call → Progress dump parse call s (s.stage t)
  linked : Linked file s.commits s.file
  merges : ∀ c ∈ s.commits, ∃ call, calls[c.call]? = some call ∧
    Merges dump parse call.config s.written c.before c.after
  nodup : (s.commits.map Commit.call).Nodup
  effective : ∀ t, t ∈ s.commits.map Commit.call ↔ (s.stage t).effective

end Invariant

variable {dump : Json → String} {parse : String → Option Json} {calls : List Call}
  {file : Option String} {s s' : System}

theorem Linked.concat {cs : List Commit} {c : Commit} {last : Option String}
    (h : Linked file cs last) (hc : c.before = last) : Linked file (cs ++ [c]) c.after := by
  induction cs generalizing file with
  | nil =>
    cases h
    exact ⟨hc, rfl⟩
  | cons d cs ih => exact ⟨h.1, ih h.2⟩

theorem serial_start : Serial dump parse calls file { file := file } where
  holder t h := by cases h
  progress t call _ := trivial
  linked := rfl
  merges c hc := by cases hc
  nodup := List.nodup_nil
  effective t := by simp [Stage.effective]

variable (h : Serial dump parse calls file s)

include h in
/-- While one call may go on, no other call holds the lock. -/
theorem Serial.idle {t : ℕ} (ht : s.lock = none ∨ (s.stage t).busy) {t' : ℕ} (hne : t' ≠ t) :
    (s.stage t').busy = false := by
  by_contra hbusy
  have hlock := h.holder t' (by simpa using hbusy)
  rcases ht with hnone | hbusy'
  · rw [hnone] at hlock
    cases hlock
  · rw [h.holder t hbusy'] at hlock
    exact hne (Option.some.inj hlock).symm

theorem progress_of_not_busy {call : Call} {stage : Stage} (h : stage.busy = false) :
    Progress dump parse call s stage := by
  cases stage <;> trivial

variable {config : Fields} {written : List Json} {before after : Option String}

/-- Under the lock a call does what it does alone. -/
theorem Merges.eq (h : Merges dump parse config written before after) :
    after = mergeDelayConfigFile dump parse config before := by
  rcases h with ⟨hleaves, rfl⟩ | ⟨hleaves, rfl, -⟩
  · exact (if_pos hleaves).symm
  · exact (if_neg hleaves).symm

theorem Merges.mono {written written' : List Json}
    (h : Merges dump parse config written before after) (hsub : written ⊆ written') :
    Merges dump parse config written' before after :=
  h.imp id fun h => ⟨h.1, h.2.1, hsub h.2.2⟩

include h in
/-- A call goes on to its next stage, while no other call is busy. -/
theorem Serial.stages {t : ℕ} {stage : Stage} {call : Call} (ht : s.lock = none ∨ (s.stage t).busy)
    (hcall : calls[t]? = some call) (hstage : s'.stage = Function.update s.stage t stage)
    (hlock : stage.busy → s'.lock = some t) (hprogress : Progress dump parse call s' stage) :
    (∀ t', (s'.stage t').busy → s'.lock = some t') ∧
    ∀ t' call, calls[t']? = some call → Progress dump parse call s' (s'.stage t') := by
  refine ⟨?_, ?_⟩
  · intro t' hbusy
    rw [hstage] at hbusy
    by_cases heq : t' = t
    · subst heq
      rw [Function.update_self] at hbusy
      exact hlock hbusy
    · rw [Function.update_of_ne heq, h.idle ht heq] at hbusy
      cases hbusy
  · intro t' call' hcall'
    rw [hstage]
    by_cases heq : t' = t
    · subst heq
      rw [hcall] at hcall'
      cases hcall'
      rw [Function.update_self]
      exact hprogress
    · rw [Function.update_of_ne heq]
      exact progress_of_not_busy (h.idle ht heq)

include h in
/-- A step that leaves the file alone. -/
theorem Serial.advance {t : ℕ} {stage : Stage} {call : Call} (ht : s.lock = none ∨ (s.stage t).busy)
    (hcall : calls[t]? = some call) (hstage : s'.stage = Function.update s.stage t stage)
    (hlock : stage.busy → s'.lock = some t) (hprogress : Progress dump parse call s' stage)
    (hfile : s'.file = s.file) (hcommits : s'.commits = s.commits)
    (hwritten : s.written ⊆ s'.written) (heffective : stage.effective = (s.stage t).effective) :
    Serial dump parse calls file s' := by
  obtain ⟨hholder, hprogress⟩ := h.stages ht hcall hstage hlock hprogress
  refine ⟨hholder, hprogress, ?_, ?_, ?_, ?_⟩
  · rw [hfile, hcommits]
    exact h.linked
  · rw [hcommits]
    intro c hc
    obtain ⟨call, hcall, hmerges⟩ := h.merges c hc
    exact ⟨call, hcall, hmerges.mono hwritten⟩
  · rw [hcommits]
    exact h.nodup
  · intro t'
    rw [hcommits, h.effective t', hstage]
    by_cases heq : t' = t
    · rw [heq, Function.update_self, heffective]
    · rw [Function.update_of_ne heq]

include h in
/-- A step with which a call takes effect. -/
theorem Serial.commit {t : ℕ} {call : Call} {after : Option String} (ht : (s.stage t).busy)
    (hcall : calls[t]? = some call) (hnew : (s.stage t).effective = false)
    (hstage : s'.stage = Function.update s.stage t .leaving) (hlock : s'.lock = s.lock)
    (hfile : s'.file = after) (hcommits : s'.commits = s.commits ++ [⟨t, s.file, after⟩])
    (hwritten : s'.written = s.written)
    (hmerges : Merges dump parse call.config s.written s.file after) :
    Serial dump parse calls file s' := by
  obtain ⟨hholder, hprogress⟩ := h.stages (.inr ht) hcall hstage
    (fun _ => by rw [hlock, h.holder t ht]) trivial
  refine ⟨hholder, hprogress, ?_, ?_, ?_, ?_⟩
  · rw [hfile, hcommits]
    exact h.linked.concat rfl
  · rw [hcommits, hwritten]
    intro c hc
    rcases List.mem_append.mp hc with hc | hc
    · exact h.merges c hc
    · obtain rfl := List.mem_singleton.mp hc
      exact ⟨call, hcall, hmerges⟩
  · rw [hcommits, List.map_append, List.map_singleton, ← List.concat_eq_append]
    apply h.nodup.concat
    rw [h.effective t, hnew]
    exact Bool.false_ne_true
  · intro t'
    rw [hcommits, List.map_append, List.mem_append, h.effective t', hstage]
    by_cases heq : t' = t
    · simp [heq, Stage.effective]
    · simp [heq, Function.update_of_ne]

include h in
theorem Serial.step {t : ℕ} (hstep : step dump parse calls t s = some s') :
    Serial dump parse calls file s' := by
  unfold Delay.step at hstep
  split at hstep
  · cases hstep
  · rename_i call hcall
    have hprogress := h.progress t call hcall
    split at hstep <;> rename_i hstage <;> rw [hstage] at hprogress
    · split_ifs at hstep with hlock
      cases hstep
      exact h.advance (.inl hlock) hcall rfl (fun _ => rfl) trivial rfl rfl (List.Subset.refl _)
        (by rw [hstage]; rfl)
    · have ht : (s.stage t).busy := by rw [hstage]; rfl
      split_ifs at hstep with hleaves
      · cases hstep
        exact h.commit ht hcall (by rw [hstage]; rfl) rfl rfl rfl rfl rfl (.inl ⟨hleaves, rfl⟩)
      · cases hstep
        exact h.advance (.inr ht) hcall rfl (fun _ => h.holder t ht) hleaves rfl rfl
          (List.Subset.refl _) (by rw [hstage]; rfl)
    · have ht : (s.stage t).busy := by rw [hstage]; rfl
      cases hstep
      exact h.advance (.inr ht) hcall rfl (fun _ => h.holder t ht) ⟨hprogress, rfl⟩ rfl rfl
        (List.Subset.refl _) (by rw [hstage]; rfl)
    · have ht : (s.stage t).busy := by rw [hstage]; rfl
      cases hstep
      exact h.advance (.inr ht) hcall rfl (fun _ => h.holder t ht)
        ⟨hprogress.1, by rw [hprogress.2]; rfl⟩ rfl rfl (List.Subset.refl _) (by rw [hstage]; rfl)
    · have ht : (s.stage t).busy := by rw [hstage]; rfl
      cases hstep
      exact h.advance (.inr ht) hcall rfl (fun _ => h.holder t ht)
        ⟨hprogress.1, hprogress.2, Function.update_self .., by simp [System.advance]⟩ rfl rfl
        (List.subset_append_left _ _) (by rw [hstage]; rfl)
    · have ht : (s.stage t).busy := by rw [hstage]; rfl
      obtain ⟨hleaves, hdoc, htemporary, hwritten⟩ := hprogress
      split at hstep
      · cases hstep
      · rename_i text htext
        rw [htemporary] at htext
        cases htext
        cases hstep
        exact h.commit ht hcall (by rw [hstage]; rfl) rfl rfl rfl rfl rfl
          (.inr ⟨hleaves, congrArg (fun d => some (dump d)) hdoc, hdoc ▸ hwritten⟩)
    · have ht : (s.stage t).busy := by rw [hstage]; rfl
      cases hstep
      exact h.advance (.inr ht) hcall rfl (fun hnot => by cases hnot) trivial rfl rfl
        (List.Subset.refl _) (by rw [hstage]; rfl)
    · cases hstep

include h in
theorem Serial.run {schedule : List ℕ} (hrun : run dump parse calls schedule s = some s') :
    Serial dump parse calls file s' := by
  induction schedule generalizing s with
  | nil =>
    cases hrun
    exact h
  | cons t schedule ih =>
    rw [Delay.run, List.foldlM_cons] at hrun
    cases hstep : Delay.step dump parse calls t s with
    | none =>
      rw [hstep] at hrun
      cases hrun
    | some m =>
      rw [hstep] at hrun
      exact ih (h.step hstep) hrun

/-! ### The kernels of the file -/

/-- The value of a key in the last of some fields that have it. -/
def lastEntry (key : String) : Fields → Option Json
  | [] => none
  | f :: fields => (lastEntry key fields).or (if f.1 = key then some f.2 else none)

theorem lastEntry_append (key : String) (fs gs : Fields) :
    lastEntry key (fs ++ gs) = (lastEntry key gs).or (lastEntry key fs) := by
  induction fs with
  | nil => simp [lastEntry]
  | cons f fs ih => rw [List.cons_append, lastEntry, ih, lastEntry, Option.or_assoc]

theorem lastEntry_isSome (key : String) (fs : Fields) :
    (lastEntry key fs).isSome ↔ key ∈ fs.map Prod.fst := by
  induction fs with
  | nil => simp [lastEntry]
  | cons f fs ih =>
    rw [lastEntry, Option.isSome_or, Bool.or_eq_true, ih, List.map_cons, List.mem_cons, or_comm]
    by_cases h : f.1 = key
    · simp [h]
    · simp [h, Ne.symm h]

/-- The kernels of a config replace entries with the same key. -/
theorem field_addKernels (config kernels : Fields) (key : String) :
    field (addKernels config kernels) key =
      (lastEntry key (own config)).or (field kernels key) := by
  unfold addKernels
  induction own config generalizing kernels with
  | nil => simp [lastEntry]
  | cons f fs ih =>
    rw [List.foldl_cons, ih, lastEntry, Option.or_assoc, Json.field_setField]
    by_cases h : f.1 = key
    · simp [h]
    · simp [h, Ne.symm h]

theorem runOf_merged (config kernels : Fields) :
    runOf (setField "kernels" (.obj kernels) config) = runOf config := by
  simp [runOf, Json.field_setField]

theorem kernelsOf_merged (config kernels : Fields) : kernelsOf (merged config kernels) = kernels := by
  simp [kernelsOf, merged, Json.field_setField]

def OfRun (parse : String → Option Json) (run : List Json) (entries : String → Option Json) :
    Option String → Prop
  | none => ∀ key, entries key = none
  | some text => ∃ fields, parse text = some (.obj fields) ∧ runOf fields = run ∧
    ∀ key, field (kernelsOf (.obj fields)) key = entries key

variable {entries : String → Option Json}

theorem ofRun_merged {before : Option String}
    (hread : parse (dump (mergedFile parse config before)) = some (mergedFile parse config before))
    (hentries : ∀ key, field (sameRunKernels parse before config) key = entries key) :
    OfRun parse (runOf config) (fun key => (lastEntry key (own config)).or (entries key))
      (some (dump (mergedFile parse config before))) := by
  refine ⟨_, hread, runOf_merged _ _, ?_⟩
  intro key
  have hkernels := kernelsOf_merged config
    (addKernels config (sameRunKernels parse before config))
  rw [merged] at hkernels
  rw [hkernels, field_addKernels, hentries]

theorem field_sameRunKernels {before : Option String}
    (h : OfRun parse (runOf config) entries before) (key : String) :
    field (sameRunKernels parse before config) key = entries key := by
  cases before with
  | none => exact (h key).symm
  | some text =>
    obtain ⟨fields, hparse, hrun, hentries⟩ := h
    have hdoc : document parse text = .obj fields := by rw [document, hparse]; rfl
    have hsame : sameRun (.obj fields) config = true := decide_eq_true hrun
    rw [sameRunKernels, hdoc, if_pos hsame, hentries]

variable (hread : ∀ doc ∈ written, parse (dump doc) = some doc)

include hread in
/-- A merge into a file of its own run adds its kernels. -/
theorem Merges.ofRun (h : OfRun parse (runOf config) entries before)
    (hmerges : Merges dump parse config written before after) :
    OfRun parse (runOf config) (fun key => (lastEntry key (own config)).or (entries key)) after := by
  rcases hmerges with ⟨⟨hown, -⟩, rfl⟩ | ⟨-, rfl, hwritten⟩
  · rw [List.isEmpty_iff.mp hown]
    simpa only [lastEntry, Option.none_or] using h
  · exact ofRun_merged (hread _ hwritten) (field_sameRunKernels h)

def configOf (calls : List Call) (t : ℕ) : Fields := ((calls[t]?).map Call.config).getD []

/-- The kernels that some calls carried, in the order in which they took effect. -/
def carried (calls : List Call) (commits : List Commit) : Fields :=
  commits.flatMap fun c => own (configOf calls c.call)

theorem configOf_eq {t : ℕ} {call : Call} (h : calls[t]? = some call) :
    configOf calls t = call.config := by
  rw [configOf, h]
  rfl

include hread in
theorem ofRun_linked {commits : List Commit} {last : Option String} {run : List Json}
    (hruns : ∀ call ∈ calls, runOf call.config = run)
    (hmerges : ∀ c ∈ commits, ∃ call, calls[c.call]? = some call ∧ Merges dump parse call.config written c.before c.after)
    (hlinked : Linked file commits last) (h : OfRun parse run entries file) :
    OfRun parse run (fun key => (lastEntry key (carried calls commits)).or (entries key)) last := by
  induction commits generalizing file entries with
  | nil =>
    cases hlinked
    exact h
  | cons c cs ih =>
    obtain ⟨hbefore, hrest⟩ := hlinked
    obtain ⟨call, hcall, hmerge⟩ := hmerges c (by simp)
    have hrun := hruns call (List.mem_of_getElem? hcall)
    have hafter := hmerge.ofRun hread (by rw [hrun, hbefore]; exact h)
    rw [hrun] at hafter
    have hall := ih (fun d hd => hmerges d (by simp [hd])) hrest hafter
    have hcons : carried calls (c :: cs) = own call.config ++ carried calls cs := by
      rw [carried, List.flatMap_cons, configOf_eq hcall]
      rfl
    simpa only [hcons, lastEntry_append, Option.or_assoc] using hall

/-- A file that a merge starts over. -/
def Foreign (parse : String → Option Json) (config : Fields) : Option String → Prop
  | none => True
  | some text => sameRun (document parse text) config = false

include hread in
/-- A call for another run keeps no kernels of the file. -/
theorem Merges.foreign (h : Foreign parse config before)
    (hmerges : Merges dump parse config written before after) :
    own config = [] ∧ before.isSome ∧ after = before ∨
      OfRun parse (runOf config) (fun key => lastEntry key (own config)) after := by
  rcases hmerges with ⟨⟨hown, hsome⟩, rfl⟩ | ⟨-, rfl, hwritten⟩
  · exact .inl ⟨List.isEmpty_iff.mp hown, hsome, rfl⟩
  · have hnone : sameRunKernels parse before config = [] := by
      cases before with
      | none => rfl
      | some text =>
        have hother : sameRun (document parse text) config = false := h
        rw [sameRunKernels, hother]
        rfl
    have hempty : ∀ key, field (sameRunKernels parse before config) key = none := by
      intro key
      rw [hnone]
      rfl
    have hmerged := ofRun_merged (hread _ hwritten) hempty
    simp only [Option.or_none] at hmerged
    exact .inr hmerged

include h in
/-- Once every call is done, each has taken effect once. -/
theorem Serial.complete (hdone : ∀ t < calls.length, s.stage t = .done) :
    (s.commits.map Commit.call).Perm (List.range calls.length) := by
  rw [List.perm_ext_iff_of_nodup h.nodup List.nodup_range]
  intro t
  rw [List.mem_range]
  constructor
  · intro ht
    obtain ⟨c, hc, rfl⟩ := List.mem_map.mp ht
    obtain ⟨call, hcall, -⟩ := h.merges c hc
    exact (List.getElem?_eq_some_iff.mp hcall).1
  · intro ht
    rw [h.effective t, hdone t ht]
    rfl

/-- There is a file once a call took effect. -/
theorem isSome_of_linked {commits : List Commit} {last : Option String}
    (hmerges : ∀ c ∈ commits, c.after.isSome) (hlinked : Linked file commits last)
    (hne : commits ≠ [] ∨ file.isSome) : last.isSome := by
  induction commits generalizing file with
  | nil =>
    cases hlinked
    exact hne.resolve_left fun h => h rfl
  | cons c cs ih => exact ih (fun d hd => hmerges d (by simp [hd])) hlinked.2 (.inr (hmerges c (by simp)))

theorem Merges.isSome (h : Merges dump parse config written before after) : after.isSome := by
  rcases h with ⟨⟨-, hsome⟩, rfl⟩ | ⟨-, rfl, -⟩
  · exact hsome
  · rfl

/-- Concurrent merges lose nothing. The calls take effect one after another, each once. In
a file of one run, every kernel has the entry of the last call that carried it, or the one
the file started with, and no other kernel is there. A call for another run starts the file
over. -/
theorem run_merges {schedule : List ℕ} (hrun : run dump parse calls schedule { file := file } = some s)
    (hread : ∀ doc ∈ s.written, parse (dump doc) = some doc) :
    Linked file s.commits s.file ∧
    (∀ c ∈ s.commits, c.after = mergeDelayConfigFile dump parse (configOf calls c.call) c.before) ∧
    (s.commits ≠ [] ∨ file.isSome → s.file.isSome) ∧
    ((∀ t < calls.length, s.stage t = .done) →
      (s.commits.map Commit.call).Perm (List.range calls.length)) ∧
    (∀ run entries, OfRun parse run entries file → (∀ call ∈ calls, runOf call.config = run) →
      OfRun parse run (fun key => (lastEntry key (carried calls s.commits)).or (entries key)) s.file ∧
      ∀ key, ((lastEntry key (carried calls s.commits)).or (entries key)).isSome ↔
        (∃ c ∈ s.commits, key ∈ (own (configOf calls c.call)).map Prod.fst) ∨
          (entries key).isSome) ∧
    ∀ c ∈ s.commits, Foreign parse (configOf calls c.call) c.before →
      own (configOf calls c.call) = [] ∧ c.before.isSome ∧ c.after = c.before ∨
        OfRun parse (runOf (configOf calls c.call))
          (fun key => lastEntry key (own (configOf calls c.call))) c.after := by
  have h := serial_start.run hrun
  have hsome : ∀ c ∈ s.commits, c.after.isSome := by
    intro c hc
    obtain ⟨call, -, hmerges⟩ := h.merges c hc
    exact hmerges.isSome
  refine ⟨h.linked, ?_, isSome_of_linked hsome h.linked, h.complete, ?_, ?_⟩
  · intro c hc
    obtain ⟨call, hcall, hmerges⟩ := h.merges c hc
    rw [configOf_eq hcall]
    exact hmerges.eq
  · intro run entries hfile hruns
    refine ⟨ofRun_linked hread hruns h.merges h.linked hfile, ?_⟩
    intro key
    rw [Option.isSome_or, Bool.or_eq_true, lastEntry_isSome]
    simp only [carried, List.map_flatMap, List.mem_flatMap]
  · intro c hc hforeign
    obtain ⟨call, hcall, hmerges⟩ := h.merges c hc
    rw [configOf_eq hcall] at hforeign ⊢
    exact hmerges.foreign hread hforeign

/-! ### Two processes of one run -/

def sampleConfig (kernels : Fields) : Fields :=
  [("delay_ns", .int 100), ("kernels", .obj kernels), ("seed", .int 7), ("version", .str "1.0")]

def sampleKernel (key : String) (on : Bool) : String × Json := (key, .obj [("on", .bool on)])

def sampleCalls : List Call :=
  [⟨100, sampleConfig [sampleKernel "a_1" true]⟩, ⟨200, sampleConfig [sampleKernel "b_2" false]⟩]

/-- The texts of the two documents that the calls write. -/
def sampleTexts : List (Json × String) :=
  [(.obj (sampleConfig [sampleKernel "a_1" true]),
      "\x7b\n  \"delay_ns\": 100,\n  \"kernels\": \x7b\n    \"a_1\": \x7b\n      \"on\": true\n    \x7d\n  \x7d,\n  \"seed\": 7,\n  \"version\": \"1.0\"\n\x7d"),
    (.obj (sampleConfig [sampleKernel "a_1" true, sampleKernel "b_2" false]),
      "\x7b\n  \"delay_ns\": 100,\n  \"kernels\": \x7b\n    \"a_1\": \x7b\n      \"on\": true\n    \x7d,\n    \"b_2\": \x7b\n      \"on\": false\n    \x7d\n  \x7d,\n  \"seed\": 7,\n  \"version\": \"1.0\"\n\x7d")]

def sampleDump (doc : Json) : String :=
  ((sampleTexts.find? fun p => p.1 = doc).map Prod.snd).getD ""

def sampleParse (text : String) : Option Json :=
  (sampleTexts.find? fun p => p.2 = text).map Prod.fst

theorem sampleParse_dump : ∀ p ∈ sampleTexts, sampleParse (sampleDump p.1) = some p.1 := by
  decide +kernel

/-- The first call runs to its end, then the second. -/
def sampleSchedule : List ℕ := List.replicate 7 0 ++ List.replicate 7 1

theorem sample_run :
    ((run sampleDump sampleParse sampleCalls sampleSchedule { file := none }).map fun s =>
      (s.written, carried sampleCalls s.commits)) =
    some (sampleTexts.map Prod.fst, [sampleKernel "a_1" true, sampleKernel "b_2" false]) := by
  decide +kernel

theorem run_merges_small :
    ∃ s, run sampleDump sampleParse sampleCalls sampleSchedule { file := none } = some s ∧
      OfRun sampleParse [.str "1.0", .int 7, .int 100]
        (fun key => lastEntry key [sampleKernel "a_1" true, sampleKernel "b_2" false]) s.file := by
  obtain ⟨s, hrun, hs⟩ := Option.map_eq_some_iff.mp sample_run
  obtain ⟨hwritten, hcarried⟩ := Prod.mk.inj hs
  have hread : ∀ doc ∈ s.written, sampleParse (sampleDump doc) = some doc := by
    intro doc hdoc
    rw [hwritten] at hdoc
    obtain ⟨p, hp, rfl⟩ := List.mem_map.mp hdoc
    exact sampleParse_dump p hp
  have hruns : ∀ call ∈ sampleCalls, runOf call.config = [.str "1.0", .int 7, .int 100] := by
    decide +kernel
  have h := ((run_merges hrun hread).2.2.2.2.1 _ (fun _ => none) (fun _ => rfl) hruns).1
  simp only [hcarried, Option.or_none] at h
  exact ⟨s, hrun, h⟩

end CuTracer.Delay
