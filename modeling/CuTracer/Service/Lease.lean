import CuTracer.Library.Versioned
import CuTracer.Service.Contracts

/-! The lease by which one process owns a run. All holders share a store that swaps a
control for another by its revision, and a clock that never goes back. A call reads the
store, reads the clock and swaps; between these steps any other call may take any of its
own, so what a call decides on may be out of date by the time it swaps. -/

namespace CuTracer.Service.Lease

open Versioned (Chain Seen Written)

/-! ### Controls -/

structure RunInput where
  runId : String
  deadlineMs : ℕ
  inputDigest : String
  deriving DecidableEq

/-- `ρ` holds the fields that nothing here reads. -/
structure RunControl (ρ : Type*) where
  revision : ℕ
  input : RunInput
  ownerToken : String := ""
  leaseExpiresMs : ℕ := 0
  controllerInput : Option ArtifactRef := none
  controllerLaunchDigest : String := ""
  submissionToken : String := ""
  backendIdentity : String := ""
  rest : ρ

inductive SwapError where
  | value
  | conflict
  | inputConflict
  deriving DecidableEq

variable {ρ : Type*}

/-- `validate_run_update`; the fields at the end are bound once they hold something. -/
def validateRunUpdate (current : RunControl ρ) (expectedRevision : ℕ) (updated : RunControl ρ) :
    Option SwapError :=
  if updated.input.runId ≠ current.input.runId ∨ updated.revision ≠ expectedRevision + 1 then
    some .value
  else if current.revision ≠ expectedRevision then some .conflict
  else if current.input.inputDigest ≠ updated.input.inputDigest then some .inputConflict
  else if current.backendIdentity ≠ "" ∧ current.backendIdentity ≠ updated.backendIdentity then
    some .inputConflict
  else if current.controllerInput ≠ none ∧ current.controllerInput ≠ updated.controllerInput then
    some .inputConflict
  else if current.controllerLaunchDigest ≠ "" ∧
      current.controllerLaunchDigest ≠ updated.controllerLaunchDigest then some .inputConflict
  else if current.submissionToken ≠ "" ∧ current.submissionToken ≠ updated.submissionToken then
    some .inputConflict
  else none

/-! ### Calls -/

/-- The calls on a lease, and the renewals of its heartbeat. A transform may raise. -/
inductive Call (ρ : Type*) where
  | enter
  | check
  | update (transform : RunControl ρ → Option (RunControl ρ))
  | renew
  | exit

inductive Failure where
  | deadlineReached
  | leaseLost
  | storeConflict
  | rejected
  deriving DecidableEq

/-- When something was read: the time then, and how often the store had been written. -/
structure Moment where
  clock : ℕ
  writes : ℕ

/-- Where a call is; it has the control that it read, and the moment then. -/
inductive Stage (ρ : Type*) where
  | acquire
  | top (attempt : ℕ)
  | guard (attempt : ℕ)
  | load (attempt : ℕ)
  | loaded (attempt : ℕ) (read : RunControl ρ) (readAt : Moment)
  | checked (attempt : ℕ) (read : RunControl ρ) (readAt : Moment)
  | swap (attempt : ℕ) (read : RunControl ρ) (readAt : Moment) (updated : RunControl ρ)
  | returned
  | raised (failure : Failure)

structure Running (ρ : Type*) where
  holder : ℕ
  call : Call ρ
  stage : Stage ρ

/-- A `RunLease`; its token is given by its number. -/
structure Holder where
  leaseMs : ℕ
  deadlineMs : ℕ := 0
  stop : Bool := false
  failed : Bool := false
  lock : Option ℕ := none

/-- A swap that succeeded: what its call had read and when, and what it replaced. -/
structure Write (ρ : Type*) extends Written (RunControl ρ) where
  holder : ℕ
  call : Call ρ
  read : RunControl ρ
  readAt : Moment
  swappedAt : ℕ

/-- A check that passed, and the control that it read then. -/
structure Passed (ρ : Type*) where
  holder : ℕ
  stored : RunControl ρ
  readAt : Moment

structure State (ρ : Type*) where
  stored : RunControl ρ
  clock : ℕ
  holders : ℕ → Holder
  calls : ℕ → Option (Running ρ) := fun _ => none
  writes : List (Write ρ) := []
  passed : List (Passed ρ) := []

/-- Tokens of lease objects, which are drawn at random and taken to be distinct. -/
structure Tokens where
  token : ℕ → String
  nonempty : ∀ holder, token holder ≠ ""
  distinct : ∀ holder holder', token holder = token holder' → holder = holder'

def attempts : ℕ := 8

/-! ### Steps -/

namespace State

def setStage (id : ℕ) (r : Running ρ) (stage : Stage ρ) (s : State ρ) : State ρ :=
  { s with calls := Function.update s.calls id (some { r with stage }) }

def setHolder (holder : ℕ) (h : Holder) (s : State ρ) : State ρ :=
  { s with holders := Function.update s.holders holder h }

/-- A call ends and leaves the lock, if it has it; a renewal that raises fails the lease. -/
def finish (id : ℕ) (r : Running ρ) (stage : Stage ρ) (s : State ρ) : State ρ :=
  let h := s.holders r.holder
  let h := if h.lock = some id then { h with lock := none } else h
  let h := match r.call, stage with
    | .renew, .raised _ => { h with failed := true }
    | _, _ => h
  (s.setStage id r stage).setHolder r.holder h

end State

variable (tokens : Tokens)

/-- Where a call starts: those on the lease's lock wait for it, and `__exit__` stops the
heartbeat first. -/
def begin (id : ℕ) (holder : ℕ) (call : Call ρ) (s : State ρ) : State ρ :=
  match call with
  | .enter | .renew => s.setStage id ⟨holder, call, .top 0⟩ (.top 0)
  | .check | .update _ => s.setStage id ⟨holder, call, .acquire⟩ .acquire
  | .exit => (s.setStage id ⟨holder, call, .acquire⟩ .acquire).setHolder holder
      { s.holders holder with stop := true }

/-- What a loop does when it has no attempt left. -/
def exhausted (call : Call ρ) : Stage ρ :=
  match call with
  | .enter => .raised .storeConflict
  | .check | .update _ | .renew => .raised .leaseLost
  | .exit => .returned

def atTop (id : ℕ) (r : Running ρ) (attempt : ℕ) (s : State ρ) : State ρ :=
  if attempts ≤ attempt then s.finish id r (exhausted r.call)
  else match r.call with
    | .enter | .exit => s.setStage id r (.load attempt)
    | .check | .update _ => s.setStage id r (.guard attempt)
    | .renew =>
      if (s.holders r.holder).stop then s.finish id r .returned
      else s.setStage id r (.guard attempt)

/-- What `_check_unlocked` asks before it reads the store. -/
def atGuard (id : ℕ) (r : Running ρ) (attempt : ℕ) (s : State ρ) : State ρ :=
  let h := s.holders r.holder
  if h.deadlineMs ≠ 0 ∧ h.deadlineMs ≤ s.clock then s.finish id r (.raised .deadlineReached)
  else if h.failed then s.finish id r (.raised .leaseLost)
  else s.setStage id r (.load attempt)

/-- The control with which a lease is taken, at the time `now`. -/
def taken (holder now leaseMs : ℕ) (current : RunControl ρ) : RunControl ρ :=
  { current with
    revision := current.revision + 1
    ownerToken := tokens.token holder
    leaseExpiresMs := min (now + leaseMs) current.input.deadlineMs }

def renewed (now leaseMs : ℕ) (current : RunControl ρ) : RunControl ρ :=
  { current with
    revision := current.revision + 1
    leaseExpiresMs := min (now + leaseMs) current.input.deadlineMs }

def released (current : RunControl ρ) : RunControl ρ :=
  { current with
    revision := current.revision + 1
    ownerToken := ""
    leaseExpiresMs := 0 }

/-- After `_check_unlocked` passed. -/
def afterCheck (id : ℕ) (r : Running ρ) (attempt : ℕ) (read : RunControl ρ) (readAt : Moment)
    (s : State ρ) : State ρ :=
  let s : State ρ := { s with passed := s.passed ++ [⟨r.holder, read, readAt⟩] }
  match r.call with
  | .update transform =>
    match transform read with
    | none => s.finish id r (.raised .rejected)
    | some updated =>
      if updated.ownerToken ≠ tokens.token r.holder then s.finish id r (.raised .rejected)
      else s.setStage id r
        (.swap attempt read readAt { updated with revision := read.revision + 1 })
  | .renew => s.setStage id r (.checked attempt read readAt)
  | _ => s.finish id r .returned

/-- The clock is read and what was read is judged by it; `__exit__` asks for the token only. -/
def atLoaded (id : ℕ) (r : Running ρ) (attempt : ℕ) (read : RunControl ρ) (readAt : Moment)
    (s : State ρ) : State ρ :=
  match r.call with
  | .exit =>
    if read.ownerToken ≠ tokens.token r.holder then s.finish id r .returned
    else s.setStage id r (.swap attempt read readAt (released read))
  | .enter =>
    if read.input.deadlineMs ≤ s.clock then s.finish id r (.raised .deadlineReached)
    else if read.ownerToken ≠ "" ∧ s.clock < read.leaseExpiresMs then
      s.finish id r (.raised .storeConflict)
    else s.setStage id r (.swap attempt read readAt
      (taken tokens r.holder s.clock (s.holders r.holder).leaseMs read))
  | _ =>
    if read.input.deadlineMs ≤ s.clock then s.finish id r (.raised .deadlineReached)
    else if read.ownerToken ≠ tokens.token r.holder ∨ read.leaseExpiresMs ≤ s.clock then
      s.finish id r (.raised .leaseLost)
    else afterCheck tokens id r attempt read readAt s

def atSwap (id : ℕ) (r : Running ρ) (attempt : ℕ) (read : RunControl ρ) (readAt : Moment)
    (updated : RunControl ρ) (s : State ρ) : State ρ :=
  match validateRunUpdate s.stored read.revision updated with
  | some .conflict => s.setStage id r (.top (attempt + 1))
  | some _ => s.finish id r (.raised .rejected)
  | none =>
    let s : State ρ := { s with
      stored := updated
      writes := s.writes ++ [⟨⟨s.stored, updated⟩, r.holder, r.call, read, readAt, s.clock⟩] }
    let s : State ρ := match r.call with
      | .enter =>
        s.setHolder r.holder { s.holders r.holder with deadlineMs := read.input.deadlineMs }
      | _ => s
    s.finish id r .returned

inductive Action (ρ : Type*) where
  | begin (id holder : ℕ) (call : Call ρ)
  | advance (id : ℕ)
  | tick (elapsed : ℕ)

def Stage.over : Stage ρ → Bool
  | .returned | .raised _ => true
  | _ => false

/-- A step, where it can be taken: a call starts, goes on, or time passes. -/
def step : Action ρ → State ρ → Option (State ρ)
  | .tick elapsed, s => some { s with clock := s.clock + elapsed }
  | .begin id holder call, s =>
    match s.calls id with
    | none => some (begin id holder call s)
    | some _ => none
  | .advance id, s =>
    match s.calls id with
    | none => none
    | some r =>
      match r.stage with
      | .acquire =>
        if (s.holders r.holder).lock = none then
          some ((s.setStage id r (.top 0)).setHolder r.holder
            { s.holders r.holder with lock := some id })
        else none
      | .top attempt => some (atTop id r attempt s)
      | .guard attempt => some (atGuard id r attempt s)
      | .load attempt => some (s.setStage id r (.loaded attempt s.stored ⟨s.clock, s.writes.length⟩))
      | .loaded attempt read readAt => some (atLoaded tokens id r attempt read readAt s)
      | .checked attempt read readAt => some (s.setStage id r
          (.swap attempt read readAt (renewed s.clock (s.holders r.holder).leaseMs read)))
      | .swap attempt read readAt updated => some (atSwap id r attempt read readAt updated s)
      | .returned | .raised _ => none

def run (actions : List (Action ρ)) (s : State ρ) : Option (State ρ) :=
  actions.foldlM (fun s action => step tokens action s) s

/-! ### What calls know -/

/-- What a swap relies on, at a time when it could succeed. -/
def Ready (holder : ℕ) (call : Call ρ) (clock : ℕ) (read : RunControl ρ) (readAt : Moment)
    (updated : RunControl ρ) : Prop :=
  match call with
  | .enter => (read.ownerToken = "" ∨ read.leaseExpiresMs ≤ clock) ∧
      updated.ownerToken = tokens.token holder
  | .update _ | .renew => read.ownerToken = tokens.token holder ∧ readAt.clock < read.leaseExpiresMs ∧
      updated.ownerToken = tokens.token holder
  | .exit => read.ownerToken = tokens.token holder ∧ updated.ownerToken = ""
  | .check => False

/-- The control that was stored at a moment: of those that were `held` one after the other, the
one that the writes of that moment had left. No write with a place before the moment came later
than it, and none with a place behind it came earlier. -/
structure StoredAt (held : List (RunControl ρ)) (times : List ℕ) (moment : Moment)
    (control : RunControl ρ) : Prop where
  held : held[moment.writes]? = some control
  reached : moment.writes ≤ times.length
  earlier : ∀ time ∈ times.take moment.writes, time ≤ moment.clock
  later : ∀ time ∈ times.drop moment.writes, moment.clock ≤ time

/-- The store, what it held so far and when that was written, and the time. -/
structure Store (ρ : Type*) where
  stored : RunControl ρ
  held : List (RunControl ρ)
  times : List ℕ
  clock : ℕ

structure Read (store : Store ρ) (read : RunControl ρ) (readAt : Moment) : Prop where
  seen : Seen RunControl.revision read store.stored
  stored : StoredAt store.held store.times readAt read
  le : readAt.clock ≤ store.clock

def Knows (store : Store ρ) (r : Running ρ) : Prop :=
  match r.stage with
  | .loaded _ read readAt => Read store read readAt
  | .checked _ read readAt => Read store read readAt ∧ r.call = .renew ∧
      read.ownerToken = tokens.token r.holder ∧ readAt.clock < read.leaseExpiresMs
  | .swap _ read readAt updated => Read store read readAt ∧
      updated.revision = read.revision + 1 ∧
      Ready tokens r.holder r.call store.clock read readAt updated
  | _ => True

/-- The controls that were stored since the first. -/
def State.held (start : RunControl ρ) (s : State ρ) : List (RunControl ρ) :=
  start :: s.writes.map fun w => w.after

def State.times (s : State ρ) : List ℕ := s.writes.map fun w => w.swappedAt

def State.store (start : RunControl ρ) (s : State ρ) : Store ρ :=
  ⟨s.stored, s.held start, s.times, s.clock⟩

structure Sound (start : RunControl ρ) (s : State ρ) : Prop where
  chain : Chain RunControl.revision start (s.writes.map Write.toWritten) s.stored
  times : ∀ time ∈ s.times, time ≤ s.clock
  writes : ∀ w ∈ s.writes, w.read = w.before ∧
    StoredAt (s.held start) s.times w.readAt w.before ∧ w.readAt.clock ≤ w.swappedAt ∧
    Ready tokens w.holder w.call w.swappedAt w.before w.readAt w.after
  passed : ∀ p ∈ s.passed, StoredAt (s.held start) s.times p.readAt p.stored ∧
    p.readAt.clock ≤ s.clock ∧ p.stored.ownerToken = tokens.token p.holder ∧ p.readAt.clock < p.stored.leaseExpiresMs
  calls : ∀ id r, s.calls id = some r → Knows tokens (s.store start) r

section

variable {tokens} {start : RunControl ρ} {s s' : State ρ} {id : ℕ} {r : Running ρ}

variable {readAt : Moment}

theorem Ready.mono {holder : ℕ} {call : Call ρ} {clock clock' : ℕ} {read updated : RunControl ρ}
    (h : Ready tokens holder call clock read readAt updated) (hclock : clock ≤ clock') :
    Ready tokens holder call clock' read readAt updated := by
  cases call with
  | enter => exact ⟨h.1.imp_right fun hle => Nat.le_trans hle hclock, h.2⟩
  | check | update _ | renew | exit => exact h

/-- Time passes, or the store is written. -/
theorem Knows.mono {store store' : Store ρ} (h : Knows tokens store r)
    (hread : ∀ read readAt, Read store read readAt → Read store' read readAt)
    (hclock : store.clock ≤ store'.clock) : Knows tokens store' r := by
  unfold Knows at *
  cases hstage : r.stage with
  | loaded attempt read readAt =>
    rw [hstage] at h
    exact hread read readAt h
  | checked attempt read readAt =>
    rw [hstage] at h
    exact ⟨hread read readAt h.1, h.2⟩
  | swap attempt read readAt updated =>
    rw [hstage] at h
    exact ⟨hread read readAt h.1, h.2.1, h.2.2.mono hclock⟩
  | acquire | top _ | guard _ | load _ | returned | raised _ => trivial

/-! ### Steps that leave the store alone -/

variable (h : Sound tokens start s)

include h in
theorem Sound.setStage {stage : Stage ρ} (hknows : Knows tokens (s.store start) { r with stage }) :
    Sound tokens start (s.setStage id r stage) := by
  refine ⟨h.chain, h.times, h.writes, h.passed, fun id' r' hr' => ?_⟩
  change Function.update s.calls id (some { r with stage }) id' = some r' at hr'
  by_cases hid : id' = id
  · subst hid
    rw [Function.update_self, Option.some.injEq] at hr'
    exact hr' ▸ hknows
  · rw [Function.update_of_ne hid] at hr'
    exact h.calls id' r' hr'

include h in
theorem Sound.setHolder (holder : ℕ) (x : Holder) :
    Sound tokens start (s.setHolder holder x) := { h with }

include h in
theorem Sound.finish {stage : Stage ρ} (hover : stage.over = true) :
    Sound tokens start (s.finish id r stage) := by
  refine (h.setStage ?_).setHolder _ _
  cases stage with
  | returned | raised _ => trivial
  | acquire | top _ | guard _ | load _ | loaded _ _ _ | checked _ _ _ | swap _ _ _ _ => cases hover

include h in
theorem Sound.begin (holder : ℕ) (call : Call ρ) :
    Sound tokens start (Lease.begin id holder call s) := by
  unfold Lease.begin
  cases call with
  | enter | renew =>
    apply h.setStage
    trivial
  | check | update _ =>
    apply h.setStage
    trivial
  | exit =>
    apply Sound.setHolder
    apply h.setStage
    trivial

theorem exhausted_over (call : Call ρ) : (exhausted call).over = true := by cases call <;> rfl

include h in
theorem Sound.atTop (attempt : ℕ) : Sound tokens start (Lease.atTop id r attempt s) := by
  unfold Lease.atTop
  by_cases hlast : attempts ≤ attempt
  · rw [if_pos hlast]
    exact h.finish (exhausted_over _)
  · rw [if_neg hlast]
    cases r.call with
    | enter | exit | check | update _ =>
      apply h.setStage
      trivial
    | renew =>
      dsimp only
      split_ifs
      · exact h.finish rfl
      · apply h.setStage
        trivial

include h in
theorem Sound.atGuard (attempt : ℕ) : Sound tokens start (Lease.atGuard id r attempt s) := by
  unfold Lease.atGuard
  dsimp only
  split_ifs
  · exact h.finish rfl
  · exact h.finish rfl
  · apply h.setStage
    trivial

include h in
/-- What is stored now is stored at this moment. -/
theorem Sound.storedAt : StoredAt (s.held start) s.times ⟨s.clock, s.writes.length⟩ s.stored := by
  have hlength : s.times.length = s.writes.length := List.length_map _
  refine ⟨?_, Nat.le_of_eq hlength.symm, fun time htime => h.times time (List.mem_of_mem_take htime),
    fun time htime => ?_⟩
  · have hlast := h.chain.getElem?_last
    rw [List.map_map, List.length_map] at hlast
    exact hlast
  · dsimp only at htime
    rw [← hlength, List.drop_length] at htime
    cases htime

include h in
theorem Sound.atLoad (attempt : ℕ) :
    Sound tokens start (s.setStage id r (.loaded attempt s.stored ⟨s.clock, s.writes.length⟩)) := by
  apply h.setStage
  exact ⟨Seen.refl _, h.storedAt, Nat.le_refl _⟩

include h in
theorem Sound.afterCheck {read : RunControl ρ} (hread : Read (s.store start) read readAt)
    (hexit : r.call ≠ .exit) (henter : r.call ≠ .enter)
    (htoken : read.ownerToken = tokens.token r.holder) (hlease : readAt.clock < read.leaseExpiresMs)
    (attempt : ℕ) : Sound tokens start (Lease.afterCheck tokens id r attempt read readAt s) := by
  have hpassed : Sound tokens start { s with passed := s.passed ++ [⟨r.holder, read, readAt⟩] } := by
    refine ⟨h.chain, h.times, h.writes, fun p hp => ?_, h.calls⟩
    obtain hp | hp := List.mem_append.mp hp
    · exact h.passed p hp
    · rw [List.mem_singleton.mp hp]
      exact ⟨hread.stored, hread.le, htoken, hlease⟩
  unfold Lease.afterCheck
  dsimp only
  cases hcall : r.call with
  | update transform =>
    dsimp only
    cases transform read with
    | none => exact hpassed.finish rfl
    | some updated =>
      dsimp only
      by_cases howner : updated.ownerToken = tokens.token r.holder
      · rw [if_neg (not_not_intro howner)]
        apply hpassed.setStage
        refine ⟨hread, rfl, ?_⟩
        rw [hcall]
        exact ⟨htoken, hlease, howner⟩
      · rw [if_pos howner]
        exact hpassed.finish rfl
  | renew =>
    apply hpassed.setStage
    exact ⟨hread, hcall, htoken, hlease⟩
  | check => exact hpassed.finish rfl
  | enter => exact absurd hcall henter
  | exit => exact absurd hcall hexit

include h in
theorem Sound.atLoaded {read : RunControl ρ} (hread : Read (s.store start) read readAt)
    (attempt : ℕ) : Sound tokens start (Lease.atLoaded tokens id r attempt read readAt s) := by
  have hchecked (hexit : r.call ≠ .exit) (henter : r.call ≠ .enter) :
      Sound tokens start
        (if read.input.deadlineMs ≤ s.clock then s.finish id r (.raised .deadlineReached)
        else if read.ownerToken ≠ tokens.token r.holder ∨ read.leaseExpiresMs ≤ s.clock then
          s.finish id r (.raised .leaseLost)
        else Lease.afterCheck tokens id r attempt read readAt s) := by
    by_cases hdeadline : read.input.deadlineMs ≤ s.clock
    · rw [if_pos hdeadline]
      exact h.finish rfl
    rw [if_neg hdeadline]
    by_cases hlost : read.ownerToken ≠ tokens.token r.holder ∨ read.leaseExpiresMs ≤ s.clock
    · rw [if_pos hlost]
      exact h.finish rfl
    rw [if_neg hlost]
    rw [not_or, not_not, Nat.not_le] at hlost
    exact h.afterCheck hread hexit henter hlost.1 (Nat.lt_of_le_of_lt hread.le hlost.2) attempt
  unfold Lease.atLoaded
  cases hcall : r.call with
  | exit =>
    dsimp only
    by_cases howner : read.ownerToken = tokens.token r.holder
    · rw [if_neg (not_not_intro howner)]
      apply h.setStage
      refine ⟨hread, rfl, ?_⟩
      rw [hcall]
      exact ⟨howner, rfl⟩
    · rw [if_pos howner]
      exact h.finish rfl
  | enter =>
    dsimp only
    by_cases hdeadline : read.input.deadlineMs ≤ s.clock
    · rw [if_pos hdeadline]
      exact h.finish rfl
    rw [if_neg hdeadline]
    by_cases hheld : read.ownerToken ≠ "" ∧ s.clock < read.leaseExpiresMs
    · rw [if_pos hheld]
      exact h.finish rfl
    rw [if_neg hheld]
    apply h.setStage
    refine ⟨hread, rfl, ?_⟩
    rw [hcall]
    rw [Classical.not_and_iff_not_or_not, Classical.not_not, Nat.not_lt] at hheld
    exact ⟨hheld, rfl⟩
  | check | update _ | renew =>
    rw [hcall] at hchecked
    exact hchecked (by simp) (by simp)

/-! ### The swap -/

/-- A control that the store accepts replaces the one whose revision it was made from. -/
theorem validateRunUpdate_none {current updated : RunControl ρ} {expectedRevision : ℕ}
    (h : validateRunUpdate current expectedRevision updated = none) :
    updated.revision = expectedRevision + 1 ∧ current.revision = expectedRevision := by
  unfold validateRunUpdate at h
  by_cases hvalue : updated.input.runId ≠ current.input.runId ∨
      updated.revision ≠ expectedRevision + 1
  · rw [if_pos hvalue] at h
    cases h
  rw [if_neg hvalue] at h
  by_cases hconflict : current.revision ≠ expectedRevision
  · rw [if_pos hconflict] at h
    cases h
  rw [not_or, Classical.not_not, Classical.not_not] at hvalue
  exact ⟨hvalue.2, Classical.not_not.mp hconflict⟩

/-- A later write leaves what was stored at a moment. -/
theorem StoredAt.write {held : List (RunControl ρ)} {times : List ℕ} {moment : Moment}
    {control updated : RunControl ρ} (h : StoredAt held times moment control) {clock : ℕ}
    (hclock : moment.clock ≤ clock) :
    StoredAt (held ++ [updated]) (times ++ [clock]) moment control := by
  refine ⟨?_, ?_, fun time htime => ?_, fun time htime => ?_⟩
  · obtain ⟨hlt, -⟩ := List.getElem?_eq_some_iff.mp h.held
    rw [List.getElem?_append_left hlt]
    exact h.held
  · rw [List.length_append]
    exact Nat.le_add_right_of_le h.reached
  · rw [List.take_append_of_le_length h.reached] at htime
    exact h.earlier time htime
  · rw [List.drop_append_of_le_length h.reached] at htime
    obtain htime | htime := List.mem_append.mp htime
    · exact h.later time htime
    · exact (List.mem_singleton.mp htime) ▸ hclock

theorem Read.write {store : Store ρ} {read updated : RunControl ρ} (h : Read store read readAt)
    (hwrite : updated.revision = store.stored.revision + 1) :
    Read ⟨updated, store.held ++ [updated], store.times ++ [store.clock], store.clock⟩ read readAt :=
  ⟨h.seen.write hwrite, h.stored.write h.le, h.le⟩

theorem State.held_write (start updated : RunControl ρ) (s : State ρ) (w : Write ρ) :
    ({ s with stored := updated, writes := s.writes ++ [w] } : State ρ).held start =
      s.held start ++ [w.after] := by
  unfold State.held
  rw [List.map_append]
  rfl

theorem State.times_write (updated : RunControl ρ) (s : State ρ) (w : Write ρ) :
    ({ s with stored := updated, writes := s.writes ++ [w] } : State ρ).times =
      s.times ++ [w.swappedAt] :=
  List.map_append

include h in
/-- A write of what was read, where that is stored still. -/
theorem Sound.write (w : Write ρ) (hread : Read (s.store start) w.read w.readAt)
    (hbefore : w.before = s.stored) (hclock : w.swappedAt = s.clock) (hsame : w.read = w.before)
    (hnext : w.after.revision = w.before.revision + 1)
    (hready : Ready tokens w.holder w.call w.swappedAt w.read w.readAt w.after) :
    Sound tokens start { s with stored := w.after, writes := s.writes ++ [w] } := by
  constructor
  · show Chain RunControl.revision start ((s.writes ++ [w]).map Write.toWritten) w.after
    rw [List.map_append]
    have hchain := h.chain
    rw [← hbefore] at hchain
    exact hchain.snoc hnext
  · intro time htime
    rw [State.times_write] at htime
    obtain htime | htime := List.mem_append.mp htime
    · exact h.times time htime
    · exact Nat.le_of_eq ((List.mem_singleton.mp htime).trans hclock)
  · intro w' hw'
    rw [State.held_write, State.times_write, hclock]
    obtain hw' | hw' := List.mem_append.mp hw'
    · obtain ⟨hsame', hstored, hle, hready'⟩ := h.writes w' hw'
      have hpast : w'.swappedAt ≤ s.clock := h.times w'.swappedAt (List.mem_map_of_mem hw')
      exact ⟨hsame', hstored.write (Nat.le_trans hle hpast), hle, hready'⟩
    · rw [List.mem_singleton.mp hw', ← hsame]
      exact ⟨rfl, hread.stored.write hread.le, hclock ▸ hread.le, hready⟩
  · intro p hp
    obtain ⟨hstored, hle, hlease⟩ := h.passed p hp
    rw [State.held_write, State.times_write, hclock]
    exact ⟨hstored.write hle, hle, hlease⟩
  · intro id r hr
    unfold State.store
    rw [State.held_write, State.times_write, hclock]
    rw [hbefore] at hnext
    exact (h.calls id r hr).mono (fun _ _ hread => hread.write hnext) (Nat.le_refl _)

include h in
theorem Sound.atSwap {read updated : RunControl ρ} (hread : Read (s.store start) read readAt)
    (hrevision : updated.revision = read.revision + 1)
    (hready : Ready tokens r.holder r.call s.clock read readAt updated) (attempt : ℕ) :
    Sound tokens start (Lease.atSwap id r attempt read readAt updated s) := by
  unfold Lease.atSwap
  cases hvalid : validateRunUpdate s.stored read.revision updated with
  | some error =>
    cases error with
    | conflict =>
      apply h.setStage
      trivial
    | value | inputConflict => exact h.finish rfl
  | none =>
    obtain ⟨-, hcurrent⟩ := validateRunUpdate_none hvalid
    have hsame : read = s.stored := hread.seen.eq hcurrent.symm
    have hnext : updated.revision = s.stored.revision + 1 := hsame ▸ hrevision
    have hwritten := h.write ⟨⟨s.stored, updated⟩, r.holder, r.call, read, readAt, s.clock⟩ hread
      rfl rfl hsame hnext hready
    dsimp only
    cases hcall : r.call with
    | enter =>
      rw [hcall] at hwritten
      refine Sound.finish ?_ rfl
      exact hwritten.setHolder _ _
    | check | update _ | renew | exit =>
      rw [hcall] at hwritten
      refine Sound.finish ?_ rfl
      exact hwritten

/-! ### Runs -/

include h in
theorem Sound.step {action : Action ρ} (hstep : Lease.step tokens action s = some s') :
    Sound tokens start s' := by
  cases action with
  | tick elapsed =>
    cases hstep
    have hclock : s.clock ≤ s.clock + elapsed := Nat.le_add_right _ _
    refine ⟨h.chain, fun time htime => Nat.le_trans (h.times time htime) hclock, h.writes,
      fun p hp => ?_, fun id r hr => (h.calls id r hr).mono
        (fun _ _ hread => ⟨hread.seen, hread.stored, Nat.le_trans hread.le hclock⟩) hclock⟩
    obtain ⟨hstored, hle, hlease⟩ := h.passed p hp
    exact ⟨hstored, Nat.le_trans hle hclock, hlease⟩
  | begin id holder call =>
    unfold Lease.step at hstep
    dsimp only at hstep
    split at hstep
    · cases hstep
      exact h.begin holder call
    · cases hstep
  | advance id =>
    unfold Lease.step at hstep
    dsimp only at hstep
    split at hstep
    · cases hstep
    rename_i r hr
    have hknows := h.calls id r hr
    unfold Knows at hknows
    split at hstep
    · split_ifs at hstep
      cases hstep
      apply Sound.setHolder
      apply h.setStage
      trivial
    · cases hstep
      exact h.atTop _
    · cases hstep
      exact h.atGuard _
    · cases hstep
      exact h.atLoad _
    · rename_i hstage
      rw [hstage] at hknows
      cases hstep
      exact h.atLoaded hknows _
    · rename_i hstage
      rw [hstage] at hknows
      cases hstep
      obtain ⟨hread, hcall, htoken, hlease⟩ := hknows
      apply h.setStage
      refine ⟨hread, rfl, ?_⟩
      rw [hcall]
      exact ⟨htoken, hlease, htoken⟩
    · rename_i hstage
      rw [hstage] at hknows
      cases hstep
      exact h.atSwap hknows.1 hknows.2.1 hknows.2.2 _
    · cases hstep
    · cases hstep

theorem sound_start (start : RunControl ρ) (clock : ℕ) (holders : ℕ → Holder) :
    Sound tokens start { stored := start, clock, holders } where
  chain := rfl
  times := fun _ h => by cases h
  writes := fun _ h => by cases h
  passed := fun _ h => by cases h
  calls := fun _ _ h => by cases h

include h in
theorem Sound.run {actions : List (Action ρ)} (hrun : Lease.run tokens actions s = some s') :
    Sound tokens start s' := by
  induction actions generalizing s with
  | nil =>
    cases hrun
    exact h
  | cons action actions ih =>
    obtain ⟨s₁, hstep, hrest⟩ := Option.bind_eq_some_iff.mp hrun
    exact ih (h.step hstep) hrest

def Call.isEnter : Call ρ → Bool
  | .enter => true
  | _ => false

def Call.isExit : Call ρ → Bool
  | .exit => true
  | _ => false

/-- The token of a holder is brought into the store by its own calls of `__enter__` only. -/
theorem ready_brings {holder holder' : ℕ} {call : Call ρ} {clock : ℕ} {before after : RunControl ρ}
    (h : Ready tokens holder call clock before readAt after)
    (hbefore : before.ownerToken ≠ tokens.token holder')
    (hafter : after.ownerToken = tokens.token holder') :
    call.isEnter = true ∧ holder = holder' := by
  cases call with
  | enter => exact ⟨rfl, tokens.distinct _ _ (h.2.symm.trans hafter)⟩
  | check => exact absurd h id
  | update _ | renew =>
    obtain ⟨hread, -, hown⟩ := h
    have hsame : holder = holder' := tokens.distinct _ _ (hown.symm.trans hafter)
    exact absurd (hsame ▸ hread) hbefore
  | exit =>
    have hnone : tokens.token holder' = "" := hafter.symm.trans h.2
    exact absurd hnone (tokens.nonempty holder')

include h in
/-- After a release the token is stored again by a new call of `__enter__` only. -/
theorem Sound.released {ws vs us : List (Write ρ)} {w w' : Write ρ}
    (hwrites : s.writes = ws ++ w :: vs ++ w' :: us) (hexit : w.call.isExit = true)
    (hafter : w'.after.ownerToken = tokens.token w.holder) :
    ∃ e ∈ vs ++ [w'], e.call.isEnter = true ∧ e.holder = w.holder := by
  have hchain := h.chain
  have hright := h.writes
  rw [hwrites] at hright
  rw [hwrites, show ws ++ w :: vs ++ w' :: us = ws ++ [w] ++ (vs ++ [w']) ++ us by simp,
    List.map_append, List.map_append] at hchain
  obtain ⟨s₂, hchain, -⟩ := Versioned.chain_append.mp hchain
  obtain ⟨s₁, hbefore, hchain⟩ := Versioned.chain_append.mp hchain
  rw [List.map_append] at hbefore hchain
  have hw : w ∈ ws ++ w :: vs ++ w' :: us := by simp
  have hempty : w.after.ownerToken = "" := by
    have hready := (hright w hw).2.2.2
    cases hcall : w.call with
    | exit =>
      rw [hcall] at hready
      exact hready.2
    | enter | check | update _ | renew =>
      rw [hcall] at hexit
      cases hexit
  have hgone : ¬s₁.ownerToken = tokens.token w.holder := by
    have hfirst : w.after = s₁ := hbefore.last_eq
    rw [← hfirst, hempty]
    exact fun hnone => tokens.nonempty w.holder hnone.symm
  have hback : s₂.ownerToken = tokens.token w.holder := by
    have hlast : w'.after = s₂ := hchain.last_eq
    rw [← hlast, hafter]
  rw [← List.map_append] at hchain
  obtain ⟨x, hx, hnot, hown⟩ :=
    hchain.exists_write (fun c => c.ownerToken = tokens.token w.holder) hgone hback
  obtain ⟨e, he, rfl⟩ := List.mem_map.mp hx
  have hmem : e ∈ ws ++ w :: vs ++ w' :: us := by
    simp only [List.mem_append, List.mem_cons] at he ⊢
    tauto
  exact ⟨e, he, ready_brings (hright e hmem).2.2.2 hnot hown⟩

end

/-! ### Two holders -/

def sampleTokens : Tokens where
  token := fun holder => String.ofList (List.replicate (holder + 1) 'a')
  nonempty := fun holder h => by
    have hlength := congrArg String.length h
    simp at hlength
  distinct := fun holder holder' h => by
    have hlength := congrArg String.length h
    simpa using hlength

def sampleStart : State Unit where
  stored := { revision := 0, input := ⟨"run", 1000, "digest"⟩, rest := () }
  clock := 0
  holders := fun _ => { leaseMs := 30 }

def sampleEnd (actions : List (Action Unit)) : State Unit :=
  (run sampleTokens actions sampleStart).getD sampleStart

end CuTracer.Service.Lease
