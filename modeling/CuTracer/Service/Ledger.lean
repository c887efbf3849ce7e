import CuTracer.Service.FileStore
import Mathlib.Data.List.Induction

/-! What processes do to the directory of the session store is their log. It is legal when every
write and every removal follows from what the file held at that moment, and every answer from
what it held at some moment of the call. -/

namespace CuTracer.Service.FileStore

variable {ρ P : Type}

/-! ### Logs -/

def Event.IsChange : Event ρ P → Prop
  | .wrote _ _ _ | .removed _ => True
  | _ => False

def Event.Changes (name : String) : Event ρ P → Prop
  | .wrote name' _ _ | .removed name' => name' = name
  | _ => False

def own (n : ℕ) (log : Log ρ P) : List (Event ρ P) :=
  (log.filter fun entry => entry.caller = n).map Entry.event

/-- Nobody has changed a file since the start of a call. -/
def Quiet (start log : Log ρ P) : Prop :=
  ∀ d, log = start ++ d → ∀ entry ∈ d, ¬entry.event.IsChange

/-- At some moment of a call that began at `start`. -/
def Saw (start : Log ρ P) (A : Log ρ P → Prop) (log : Log ρ P) : Prop :=
  ∃ m, start <+: m ∧ m <+: log ∧ A m

/-- A process is between two calls. -/
def Idle (n : ℕ) (log : Log ρ P) : Prop :=
  ∀ event, (own n log).getLast? = some event → ∃ outcome, event = .ended outcome

/-- A process is in a call, and has changed the files so far as it says. -/
structure InCall (n : ℕ) (operation : Operation ρ) (start : Log ρ P) (changes : List (Event ρ P))
    (log : Log ρ P) : Prop where
  began : ∃ before, start = before ++ [⟨n, .began operation⟩]
  since : ∃ d, log = start ++ d ∧ own n d = changes
  change : ∀ event ∈ changes, event.IsChange

/-! ### What calls are to do -/

/-- A session is stored where there is none, or in place of the revision before it. -/
def Writes (operation : Operation ρ) (session : Session ρ) (file : Option (Session ρ × Record P)) :
    Prop :=
  (operation = .create session ∧ file = none) ∨
    ∃ expectedRevision current record,
      operation = .compareAndSwap session.sessionId expectedRevision session ∧
      file = some (current, record) ∧ current.sessionId = session.sessionId ∧
      current.stateRevision = expectedRevision ∧ session.stateRevision = expectedRevision + 1

/-- The sessions that are not settled, in the order of their updates and identifiers. -/
def Pending (log : Log ρ P) (limit : ℤ) (sessionIds : List String) : Prop :=
  ∃ entries : List (ℤ ×ₗ String), entries.Pairwise (· < ·) ∧
    (∀ updatedAtMs sessionId, toLex (updatedAtMs, sessionId) ∈ entries ↔
      ∃ name session record, stored log name = some (session, record) ∧
        session.requiresReconciliation = true ∧
        record.updatedAtMs = updatedAtMs ∧ session.sessionId = sessionId) ∧
    sessionIds = (entries.take limit.toNat).map fun entry => (ofLex entry).2

/-- `StoreConflict`, `ValueError` and `SessionNotFound`. -/
def Fault.Refuses : Fault → Prop
  | .unavailable _ => False
  | _ => True

section Spec

variable (codec : Codec ρ P) (retention : ℕ → SessionRetentionPolicy)

/-- The outcome of a call is what the files were at some moment of it, and what it changed. -/
def Answers (start log : Log ρ P) (changes : List (Event ρ P)) :
    Operation ρ → Except Fault (Answer ρ) → Prop
  | .create session, .ok .done => ∃ name record, changes = [.wrote name session record]
  | .create session, .error (.conflict sessionId) =>
    sessionId = session.sessionId ∧ Saw start (fun m => stored m (sha256Text sessionId) ≠ none) log
  | .load sessionId, .ok (.session session) => changes = [] ∧
    Saw start (fun m => ∃ last record, stored m (sha256Text sessionId) = some (last, record) ∧
      last.sessionId = sessionId ∧ codec.fromDict (codec.toDict last) = .ok session ∧
      session.stateRevision = last.stateRevision) log
  | .load sessionId, .error (.notFound sessionId') =>
    sessionId' = sessionId ∧ Saw start (fun m => stored m (sha256Text sessionId) = none) log
  | .compareAndSwap _ _ session, .ok .done => ∃ name record, changes = [.wrote name session record]
  | .compareAndSwap sessionId expectedRevision _, .error (.conflict sessionId') =>
    sessionId' = sessionId ∧
    Saw start (fun m => ∃ current record, stored m (sha256Text sessionId) = some (current, record) ∧
      current.sessionId = sessionId ∧ current.stateRevision ≠ expectedRevision) log
  | .compareAndSwap sessionId _ _, .error (.notFound sessionId') =>
    sessionId' = sessionId ∧ Saw start (fun m => stored m (sha256Text sessionId) = none) log
  | .listPending limit, .ok (.ids sessionIds) => changes = [] ∧
    (Quiet start log → Pending start limit sessionIds)
  | .pruneExpired _ _, .ok (.removed count) => changes.length = count
  | _, .error (.value _) | _, .error (.unavailable _) => True
  | _, _ => False

/-- What may happen after a log. -/
def Permitted (log : Log ρ P) (n : ℕ) : Event ρ P → Prop
  | .began _ => Idle n log
  | .wrote name session rec => ∃ operation start, InCall n operation start [] log ∧
    Writes operation session (stored log name) ∧ blank session.sessionId = false ∧
    name = sha256Text session.sessionId ∧
    ∃ updatedAtMs, rec = record codec (retention n) session updatedAtMs
  | .removed name => ∃ nowMs limit start changes,
    InCall n (.pruneExpired nowMs limit) start changes log ∧
    ∃ session record, stored log name = some (session, record) ∧ record.expiresAtMs ≤ nowMs
  | .ended outcome => ∃ operation start changes, InCall n operation start changes log ∧
    Answers codec start log changes operation outcome ∧
    ∀ e, outcome = .error e → e.Refuses → changes = []

/-- Whatever happened was permitted by what had happened before. -/
def Legal (log : Log ρ P) : Prop :=
  ∀ past entry rest, log = past ++ entry :: rest →
    Permitted codec retention past entry.caller entry.event

end Spec

/-- The revision grows from one write to the next while the file is not removed. All swaps of a
stored revision write the next one, so that at most one of them succeeds. -/
def Once (log : Log ρ P) : Prop :=
  ∀ past n m name session session' record record' between rest,
    log = past ++ ⟨n, .wrote name session record⟩ :: between ++
      ⟨m, .wrote name session' record'⟩ :: rest →
    (∀ entry ∈ between, entry.event ≠ .removed name) → session.stateRevision < session'.stateRevision

/-! ### What a log shows -/

section Logs

variable {codec : Codec ρ P} {retention : ℕ → SessionRetentionPolicy} {log start d : Log ρ P}
  {entry : Entry ρ P} {n m : ℕ} {name : String} {A : Log ρ P → Prop}

@[simp] theorem own_append : own n (log ++ d) = own n log ++ own n d := by simp [own]

@[simp] theorem own_singleton {event : Event ρ P} : own n [⟨n, event⟩] = [event] := by simp [own]

theorem own_of_others (h : ∀ entry ∈ d, entry.caller ≠ n) : own n d = [] := by
  rw [own, List.map_eq_nil_iff, List.filter_eq_nil_iff]
  simpa using h

theorem stored_snoc : stored (log ++ [entry]) name = entry.event.after name (stored log name) := by
  simp [stored]

theorem Event.after_of_not_changes {event : Event ρ P} {file : Option (Session ρ × Record P)}
    (h : ¬event.Changes name) : event.after name file = file := by
  cases event with
  | began _ => rfl
  | wrote name' session record => exact if_neg h
  | removed name' => exact if_neg h
  | ended _ => rfl

theorem Event.IsChange.of_changes {event : Event ρ P} (h : event.Changes name) : event.IsChange := by
  cases event <;> first | exact trivial | exact h

theorem stored_append (h : ∀ entry ∈ d, ¬entry.event.Changes name) :
    stored (log ++ d) name = stored log name := by
  induction d using List.reverseRecOn with
  | nil => rw [List.append_nil]
  | append_singleton d entry ih =>
    rw [← List.append_assoc, stored_snoc,
      Event.after_of_not_changes (h entry (List.mem_append_right _ (List.mem_singleton_self entry)))]
    exact ih fun e he => h e (List.mem_append_left _ he)

theorem Saw.append (h : Saw start A log) : Saw start A (log ++ d) := by
  obtain ⟨m, hstart, hm, hA⟩ := h
  exact ⟨m, hstart, hm.trans (List.prefix_append log d), hA⟩

theorem Quiet.of_append (h : Quiet start (log ++ d)) : Quiet start log := by
  intro e he entry hentry
  exact h (e ++ d) (by rw [he, List.append_assoc]) entry (List.mem_append_left _ hentry)

/-- Where nobody changes files, they hold what they held at the start. -/
theorem Quiet.stored {m : Log ρ P} (h : Quiet start log) (hstart : start <+: m) (hm : m <+: log) :
    stored m name = stored start name := by
  obtain ⟨d, rfl⟩ := hstart
  obtain ⟨e, rfl⟩ := hm
  refine stored_append fun entry hentry hchanges => ?_
  exact h (d ++ e) (List.append_assoc ..) entry (List.mem_append_left _ hentry) (.of_changes hchanges)

variable {operation : Operation ρ} {changes : List (Event ρ P)}

variable (h : InCall n operation start changes log)

include h in
theorem InCall.of_start : start <+: log := by
  obtain ⟨d, rfl, -⟩ := h.since
  exact List.prefix_append start d

include h in
theorem InCall.saw (hA : A log) : Saw start A log :=
  ⟨log, h.of_start, List.prefix_rfl, hA⟩

include h in
/-- What others do leaves a call where it is. -/
theorem InCall.append (hd : ∀ entry ∈ d, entry.caller ≠ n) :
    InCall n operation start changes (log ++ d) := by
  obtain ⟨e, rfl, hown⟩ := h.since
  refine ⟨h.began, ⟨e ++ d, List.append_assoc .., ?_⟩, h.change⟩
  rw [own_append, own_of_others hd, List.append_nil, hown]

include h in
theorem InCall.push {event : Event ρ P} (hevent : event.IsChange) :
    InCall n operation start (changes ++ [event]) (log ++ [⟨n, event⟩]) := by
  obtain ⟨d, rfl, hown⟩ := h.since
  refine ⟨h.began, ⟨d ++ [⟨n, event⟩], List.append_assoc .., ?_⟩, ?_⟩
  · rw [own_append, own_singleton, hown]
  · simpa [or_imp, forall_and] using ⟨h.change, hevent⟩

/-! ### Legal logs -/

theorem legal_snoc : Legal codec retention (log ++ [entry]) ↔
    Legal codec retention log ∧ Permitted codec retention log entry.caller entry.event := by
  constructor
  · intro h
    refine ⟨fun past e rest heq => h past e (rest ++ [entry]) (by simp [heq]), h log entry [] rfl⟩
  · rintro ⟨h, hentry⟩ past e rest heq
    rcases List.eq_nil_or_concat rest with rfl | ⟨rest, last, rfl⟩
    · obtain ⟨rfl, hlast⟩ := List.append_inj' heq rfl
      obtain rfl := List.singleton_inj.mp hlast
      exact hentry
    · rw [List.concat_eq_append, ← List.cons_append, ← List.append_assoc] at heq
      exact h past e rest (List.append_inj' heq rfl).1

theorem Legal.of_append (h : Legal codec retention (log ++ d)) : Legal codec retention log :=
  fun past e rest heq => h past e (rest ++ d) (by simp [heq])

/-- A file holds the record of a session that belongs there. -/
structure Kept (codec : Codec ρ P) (name : String) (session : Session ρ) (rec : Record P) : Prop where
  name_eq : name = sha256Text session.sessionId
  not_blank : blank session.sessionId = false
  record_eq : ∃ retention updatedAtMs, rec = record codec retention session updatedAtMs

theorem Legal.kept (h : Legal codec retention log) {session : Session ρ} {rec : Record P}
    (hstored : stored log name = some (session, rec)) : Kept codec name session rec := by
  induction log using List.reverseRecOn with
  | nil => cases hstored
  | append_singleton log entry ih =>
    obtain ⟨hlog, hentry⟩ := legal_snoc.mp h
    obtain ⟨n, event⟩ := entry
    rw [stored_snoc] at hstored
    cases event with
    | began _ => exact ih hlog hstored
    | ended _ => exact ih hlog hstored
    | removed name' =>
      rw [Event.after] at hstored
      split_ifs at hstored
      exact ih hlog hstored
    | wrote name' session' rec' =>
      rw [Event.after] at hstored
      split_ifs at hstored with hname
      · cases hstored
        obtain ⟨-, -, -, -, hblank, hkey, updatedAtMs, hrec⟩ := hentry
        exact ⟨hname ▸ hkey, hblank, retention n, updatedAtMs, hrec⟩
      · exact ih hlog hstored

end Logs

end CuTracer.Service.FileStore
