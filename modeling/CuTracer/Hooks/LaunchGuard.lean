import CuTracer.Hooks.Functions
import CuTracer.Library.RecursiveMutex
import Mathlib.Data.List.Count
import Mathlib.Tactic.Cases

/-! The guard of the driver callbacks. Every callback takes the event mutex, which its thread may have
already; the entry of a launch may keep its acquisition over the driver call, until the exit that
takes its entry off the thread's stack gives it back. -/

namespace CuTracer.Hooks

/-- The driver calls that `nvbit_at_cuda_event` tells apart. -/
inductive CudaApi where
  | cuLaunch | cuLaunchGrid
  | cuLaunchKernel | cuLaunchKernelPtsz
  | cuLaunchCooperativeKernel | cuLaunchCooperativeKernelPtsz
  | cuLaunchKernelEx | cuLaunchKernelExPtsz
  | cuLaunchGridAsync
  | cuGraphAddKernelNode
  | cuGraphLaunch | cuGraphLaunchPtsz
  | cuGraphLaunchWithArguments
  | other (cbid : ℕ)
  deriving DecidableEq

/-! ### `ScopedCudaLaunchCallback` -/

structure PendingLaunch where
  context : CUcontext
  api : CudaApi
  launchId : Option ℕ
  retainedLock : Bool
  deriving DecidableEq

def PendingLaunch.isOf (context : CUcontext) (api : CudaApi) (launch : PendingLaunch) : Bool :=
  launch.context = context ∧ launch.api = api

structure LaunchExit where
  launch : Option PendingLaunch := none
  inOrder : Bool := false

/-- The members of the guard, with the launches of its thread, the newest last. -/
structure LaunchCallback where
  pendingLaunches : List PendingLaunch
  retainEntryLock : Bool := false
  releaseEntryLock : Bool := false

def LaunchCallback.enter (g : LaunchCallback) (launch : PendingLaunch) : LaunchCallback :=
  { g with pendingLaunches := g.pendingLaunches ++ [launch], retainEntryLock := launch.retainedLock }

/-- `take_pending_launch`: `entry` is a place in the reversed list. -/
def LaunchCallback.takePendingLaunch (g : LaunchCallback) (context : CUcontext) (api : CudaApi) :
    LaunchCallback × LaunchExit :=
  let reversed := g.pendingLaunches.reverse
  match reversed.findIdx? (PendingLaunch.isOf context api) with
  | none => (g, {})
  | some entry =>
    let launch := reversed[entry]?
    ({ g with
      pendingLaunches := (reversed.eraseIdx entry).reverse
      releaseEntryLock := launch.any PendingLaunch.retainedLock }, ⟨launch, entry = 0⟩)

/-! ### `nvbit_at_cuda_event` -/

/-- A driver callback. `streamCapture` tells whether the stream of the launch is capturing, `launchId`
is what `enter_kernel_launch` gives the launch. -/
structure CudaEvent where
  ctx : CUcontext
  isExit : Bool
  cbid : CudaApi
  streamCapture : Bool
  launchId : Option ℕ

/-- What a callback did: its guard, the exit if it took a launch, and whether it set `channel_failed`. -/
structure Handled where
  guard : LaunchCallback
  exit : Option LaunchExit := none
  channelFailed : Bool := false

/-- `take_pending_launch` of the callback. -/
def CudaEvent.take (e : CudaEvent) (g : LaunchCallback) : Handled :=
  let (guard, exit) := g.takePendingLaunch e.ctx e.cbid
  ⟨guard, some exit, !exit.inOrder⟩

def CudaEvent.handle (e : CudaEvent) (g : LaunchCallback) : Handled :=
  match e.cbid with
  | .cuLaunch | .cuLaunchGrid =>
    if !e.isExit then ⟨g.enter ⟨e.ctx, e.cbid, e.launchId, true⟩, none, false⟩ else e.take g
  | .cuLaunchKernel | .cuLaunchKernelPtsz | .cuLaunchCooperativeKernel | .cuLaunchCooperativeKernelPtsz
  | .cuLaunchKernelEx | .cuLaunchKernelExPtsz | .cuLaunchGridAsync =>
    if !e.isExit then ⟨g.enter ⟨e.ctx, e.cbid, e.launchId, !e.streamCapture⟩, none, false⟩ else e.take g
  | .cuGraphAddKernelNode => ⟨g, none, false⟩
  | .cuGraphLaunch | .cuGraphLaunchPtsz =>
    if !e.isExit then ⟨g.enter ⟨e.ctx, e.cbid, none, true⟩, none, false⟩ else e.take g
  | .cuGraphLaunchWithArguments =>
    if !e.isExit then ⟨g.enter ⟨e.ctx, e.cbid, none, true⟩, none, true⟩ else e.take g
  | .other _ => ⟨g, none, false⟩

/-! ### The threads of the application -/

/-- Where a thread is: outside of a callback, in one that has the mutex and has not come to its launch
event, or in one that did. -/
inductive Place where
  | outside
  | started (e : CudaEvent)
  | handled (guard : LaunchCallback) (exit : Option LaunchExit)

/-- A thread. Scopes of the tool on it, which suppress callbacks, are inside its callback if there is one. -/
structure Thread where
  pendingLaunches : List PendingLaunch := []
  place : Place := .outside
  toolScopes : ℕ := 0

/-- `is_suppressed`. -/
def Thread.suppressed (t : Thread) : Bool :=
  match t.place with
  | .outside => 0 < t.toolScopes
  | _ => true

/-- The process. `badUnlock` is set by an unlock of the mutex that its thread does not have. -/
structure Process (θ : Type) where
  eventMutex : RecursiveMutex θ := .free
  threads : θ → Thread := fun _ => {}
  channelFailed : CUcontext → Bool := fun _ => false
  badUnlock : Bool := false

/-- What a thread does next. -/
inductive Move (θ : Type) where
  /-- A driver callback comes: it returns if it is suppressed, or takes the mutex. -/
  | arrive (t : θ) (e : CudaEvent)
  /-- The callback of the thread handles its event. -/
  | handle (t : θ)
  /-- It returns, which runs the destructor of the guard. -/
  | return (t : θ)
  | openScope (t : θ)
  | closeScope (t : θ)

section

variable {θ : Type} [DecidableEq θ]

def Process.setThread (p : Process θ) (t : θ) (thread : Thread) : Process θ :=
  { p with threads := Function.update p.threads t thread }

/-- `if (c) pthread_mutex_unlock(&mutex_)`. -/
def Process.unlockIf (p : Process θ) (c : Bool) (t : θ) : Process θ :=
  if c then
    match p.eventMutex.unlock t with
    | some m => { p with eventMutex := m }
    | none => { p with badUnlock := true }
  else p

/-- A move of a thread, if it can make it. A callback waits for the mutex while another thread has it. -/
def Process.step (p : Process θ) : Move θ → Option (Process θ)
  | .arrive t e =>
    if (p.threads t).suppressed then some p
    else (p.eventMutex.lock t).map fun m =>
      { p with eventMutex := m }.setThread t { p.threads t with place := .started e }
  | .handle t =>
    match (p.threads t).place with
    | .started e =>
      let done := e.handle { pendingLaunches := (p.threads t).pendingLaunches }
      some ({ p with channelFailed := fun c => p.channelFailed c || (done.channelFailed && c == e.ctx) }.setThread t
        { p.threads t with
          pendingLaunches := done.guard.pendingLaunches
          place := .handled done.guard done.exit })
    | _ => none
  | .return t =>
    match (p.threads t).place with
    | .handled guard _ =>
      if (p.threads t).toolScopes = 0 then
        some (((p.unlockIf guard.releaseEntryLock t).unlockIf (!guard.retainEntryLock) t).setThread t
          { p.threads t with place := .outside })
      else none
    | _ => none
  | .openScope t => some (p.setThread t { p.threads t with toolScopes := (p.threads t).toolScopes + 1 })
  | .closeScope t =>
    if 0 < (p.threads t).toolScopes then
      some (p.setThread t { p.threads t with toolScopes := (p.threads t).toolScopes - 1 })
    else none

/-- The states of the process, under any interleaving of its threads. -/
inductive Process.Reachable : Process θ → Prop
  | start : Reachable {}
  | step {p p' : Process θ} {m : Move θ} (h : Reachable p) (hstep : p.step m = some p') : Reachable p'

end

/-! ### One callback -/

section

variable {g : LaunchCallback} {e : CudaEvent} {context : CUcontext} {api : CudaApi}

/-- The launch that an exit takes is the newest one of its context and call. -/
theorem takePendingLaunch_cases (g : LaunchCallback) (context : CUcontext) (api : CudaApi) :
    (∃ older launch newer, g.pendingLaunches = older ++ launch :: newer ∧
      launch.isOf context api ∧ (∀ l ∈ newer, ¬l.isOf context api) ∧
      g.takePendingLaunch context api =
        ({ g with pendingLaunches := older ++ newer, releaseEntryLock := launch.retainedLock },
          ⟨some launch, newer = []⟩)) ∨
      (∀ l ∈ g.pendingLaunches, ¬l.isOf context api) ∧ g.takePendingLaunch context api = (g, {}) := by
  unfold LaunchCallback.takePendingLaunch
  set reversed := g.pendingLaunches.reverse with hreversed
  have hpending : g.pendingLaunches = reversed.reverse := by rw [hreversed, List.reverse_reverse]
  cases hfind : reversed.findIdx? (PendingLaunch.isOf context api) with
  | none =>
    right
    have hnone := List.findIdx?_eq_none_iff.mp hfind
    exact ⟨fun l hl => by simpa using hnone l (by simpa [hreversed] using hl), by simp only [hfind]⟩
  | some entry =>
    left
    obtain ⟨hlt, hof, hbefore⟩ := List.findIdx?_eq_some_iff_getElem.mp hfind
    refine ⟨(reversed.drop (entry + 1)).reverse, reversed[entry], (reversed.take entry).reverse, ?_, hof, ?_, ?_⟩
    · conv_lhs => rw [hpending, ← List.take_append_drop entry reversed, ← List.getElem_cons_drop hlt]
      simp
    · intro l hl
      obtain ⟨k, hk, rfl⟩ := List.mem_iff_getElem.mp (List.mem_reverse.mp hl)
      rw [List.length_take] at hk
      rw [List.getElem_take]
      exact hbefore k (by omega)
    · have hempty : ((reversed.take entry).reverse = []) = (entry = 0) := by
        rw [List.reverse_eq_nil_iff, List.take_eq_nil_iff]
        have hne : reversed ≠ [] := List.ne_nil_of_length_pos (by omega)
        simp [hne]
      simp only [hfind, List.getElem?_eq_getElem hlt, Option.any_some, List.eraseIdx_eq_take_drop_succ,
        List.reverse_append, hempty]

def CudaApi.launches : CudaApi → Bool
  | .cuGraphAddKernelNode | .other _ => false
  | _ => true

/-- The launch that an entry puts on the stack. A launch of a graph has no id, and one that a stream
captures does not keep the mutex. -/
def CudaEvent.entered (e : CudaEvent) : PendingLaunch where
  context := e.ctx
  api := e.cbid
  launchId :=
    match e.cbid with
    | .cuGraphLaunch | .cuGraphLaunchPtsz | .cuGraphLaunchWithArguments => none
    | _ => e.launchId
  retainedLock :=
    match e.cbid with
    | .cuLaunch | .cuLaunchGrid | .cuGraphLaunch | .cuGraphLaunchPtsz | .cuGraphLaunchWithArguments => true
    | _ => !e.streamCapture

theorem handle_exit (hl : e.cbid.launches) (hexit : e.isExit) : e.handle g = e.take g := by
  unfold CudaEvent.handle
  split <;> simp_all [CudaApi.launches]

theorem handle_entry (hl : e.cbid.launches) (hentry : e.isExit = false) :
    e.handle g = ⟨g.enter e.entered, none, e.cbid = .cuGraphLaunchWithArguments⟩ := by
  unfold CudaEvent.handle CudaEvent.entered
  split <;> simp_all [CudaApi.launches]

theorem handle_other (hl : e.cbid.launches = false) : e.handle g = ⟨g, none, false⟩ := by
  unfold CudaEvent.handle
  split <;> simp_all [CudaApi.launches]

/-! ### Acquisitions -/

def retained (launches : List PendingLaunch) : ℕ := launches.countP PendingLaunch.retainedLock

/-- The acquisitions that the destructor gives back. -/
def LaunchCallback.released (g : LaunchCallback) : ℕ :=
  (if g.releaseEntryLock then 1 else 0) + if g.retainEntryLock then 0 else 1

/-- The acquisitions of a thread: one for each launch that keeps the mutex, and those that its callback
gives back. -/
def Thread.acquisitions (t : Thread) : ℕ :=
  retained t.pendingLaunches +
    match t.place with
    | .outside => 0
    | .started _ => 1
    | .handled guard _ => guard.released

theorem retained_append (ls ls' : List PendingLaunch) : retained (ls ++ ls') = retained ls + retained ls' :=
  List.countP_append

theorem retained_cons (l : PendingLaunch) (ls : List PendingLaunch) :
    retained (l :: ls) = retained ls + if l.retainedLock then 1 else 0 :=
  List.countP_cons

/-- The acquisition of the callback goes to the launch that it enters or is given back, and so is that
of the launch that it takes. -/
theorem handle_balance (e : CudaEvent) (launches : List PendingLaunch) :
    retained (e.handle { pendingLaunches := launches }).guard.pendingLaunches +
      (e.handle { pendingLaunches := launches }).guard.released = retained launches + 1 := by
  cases hl : e.cbid.launches with
  | false => rw [handle_other hl]; rfl
  | true =>
    cases hexit : e.isExit with
    | false =>
      rw [handle_entry hl hexit]
      cases hkeep : e.entered.retainedLock <;>
        simp [LaunchCallback.enter, LaunchCallback.released, retained, hkeep]
    | true =>
      rw [handle_exit hl hexit, CudaEvent.take]
      obtain ⟨older, launch, newer, hsplit, -, -, htake⟩ | ⟨-, htake⟩ :=
        takePendingLaunch_cases { pendingLaunches := launches } e.ctx e.cbid
      · simp only at hsplit
        rw [htake, hsplit]
        simp only [LaunchCallback.released, retained_append, retained_cons, Bool.false_eq_true, if_false]
        omega
      · rw [htake]
        rfl

end

/-! ### All callbacks -/

section

variable {θ : Type} [DecidableEq θ]

/-- Each thread holds the mutex as often as it has acquisitions, in a callback at least once, and no
unlock went wrong. -/
structure Process.Balanced (p : Process θ) : Prop where
  holds : ∀ t, p.eventMutex.holds t = (p.threads t).acquisitions
  busy : ∀ t, (p.threads t).place ≠ .outside → 0 < (p.threads t).acquisitions
  unlocks : p.badUnlock = false

section

variable {p p' : Process θ} {t u : θ}

@[simp] theorem setThread_threads (thread : Thread) :
    (p.setThread t thread).threads u = if u = t then thread else p.threads u :=
  Function.update_apply _ _ _ _

@[simp] theorem setThread_eventMutex (thread : Thread) :
    (p.setThread t thread).eventMutex = p.eventMutex := rfl

@[simp] theorem setThread_badUnlock (thread : Thread) :
    (p.setThread t thread).badUnlock = p.badUnlock := rfl

@[simp] theorem unlockIf_threads (c : Bool) : (p.unlockIf c t).threads = p.threads := by
  unfold Process.unlockIf
  split_ifs
  · split <;> rfl
  · rfl

/-- A release of an acquisition that the thread holds. -/
theorem unlockIf_holds {c : Bool} (h : c → 0 < p.eventMutex.holds t) :
    (∀ u, (p.unlockIf c t).eventMutex.holds u =
      p.eventMutex.holds u - if t = u then (if c then 1 else 0) else 0) ∧
      (p.unlockIf c t).badUnlock = p.badUnlock := by
  unfold Process.unlockIf
  cases c with
  | false => simp
  | true =>
    obtain ⟨m, hm, hholds⟩ := RecursiveMutex.exists_unlock (h rfl)
    simp [hm, hholds]

theorem Balanced.start : Process.Balanced ({} : Process θ) := ⟨fun _ => rfl, fun _ h => absurd rfl h, rfl⟩

/-- A thread that keeps its acquisitions keeps the balance. -/
theorem Balanced.setThread (h : p.Balanced) {thread : Thread}
    (hacq : thread.acquisitions = (p.threads t).acquisitions)
    (hbusy : thread.place ≠ .outside → (p.threads t).place ≠ .outside) : (p.setThread t thread).Balanced := by
  refine ⟨fun u => ?_, fun u => ?_, h.unlocks⟩
  · rw [setThread_threads, setThread_eventMutex, h.holds u]
    split_ifs with hu
    · rw [hu, hacq]
    · rfl
  · rw [setThread_threads]
    split_ifs with hu
    · exact fun hplace => hacq ▸ h.busy t (hbusy hplace)
    · exact h.busy u

theorem Balanced.step (h : p.Balanced) {m : Move θ} (hstep : p.step m = some p') : p'.Balanced := by
  cases m with
  | arrive t e =>
    simp only [Process.step] at hstep
    split_ifs at hstep with hs
    · exact Option.some.inj hstep ▸ h
    · obtain ⟨m, hm, rfl⟩ := Option.map_eq_some_iff.mp hstep
      have hplace : (p.threads t).place = .outside := by
        unfold Thread.suppressed at hs
        split at hs <;> simp_all
      refine ⟨fun u => ?_, fun u => ?_, h.unlocks⟩
      · rw [setThread_threads, setThread_eventMutex]
        simp only
        rw [RecursiveMutex.holds_lock hm u, h.holds u]
        by_cases hu : u = t
        · subst hu
          simp [Thread.acquisitions, hplace]
        · rw [if_neg (Ne.symm hu), if_neg hu, add_zero]
      · rw [setThread_threads]
        split_ifs
        · exact fun _ => Nat.succ_pos _
        · exact h.busy u
  | handle t =>
    simp only [Process.step] at hstep
    cases hplace : (p.threads t).place with
    | outside => simp [hplace] at hstep
    | handled guard exit => simp [hplace] at hstep
    | started e =>
      simp only [hplace, Option.some.injEq] at hstep
      subst hstep
      have hp : Process.Balanced { p with channelFailed := fun c => p.channelFailed c ||
          (e.handle { pendingLaunches := (p.threads t).pendingLaunches }).channelFailed && c == e.ctx } :=
        { h with }
      refine Balanced.setThread hp ?_ fun _ => by simp [hplace]
      have hbalance := handle_balance e (p.threads t).pendingLaunches
      simpa [Thread.acquisitions, hplace] using hbalance
  | «return» t =>
    simp only [Process.step] at hstep
    cases hplace : (p.threads t).place with
    | outside => simp [hplace] at hstep
    | started e => simp [hplace] at hstep
    | handled guard exit =>
      simp only [hplace] at hstep
      split_ifs at hstep
      cases hstep
      have hholds : p.eventMutex.holds t = retained (p.threads t).pendingLaunches + guard.released := by
        rw [h.holds t, Thread.acquisitions, hplace]
      have hrelease : guard.releaseEntryLock → 0 < p.eventMutex.holds t := by
        intro hr
        simp only [hholds, LaunchCallback.released, hr, if_true]
        omega
      obtain ⟨hfirst, hgood⟩ := unlockIf_holds hrelease
      have hretain : !guard.retainEntryLock → 0 < (p.unlockIf guard.releaseEntryLock t).eventMutex.holds t := by
        intro hr
        simp only [Bool.not_eq_eq_eq_not, Bool.not_true] at hr
        simp only [hfirst t, hholds, LaunchCallback.released, hr, if_true, Bool.false_eq_true, if_false]
        omega
      obtain ⟨hsecond, hgood'⟩ := unlockIf_holds hretain
      refine ⟨fun u => ?_, fun u => ?_, hgood'.trans (hgood.trans h.unlocks)⟩
      · rw [setThread_threads, setThread_eventMutex, hsecond u, hfirst u]
        by_cases hu : u = t
        · subst hu
          simp only [if_true, hholds, Thread.acquisitions, LaunchCallback.released]
          cases guard.releaseEntryLock <;> cases guard.retainEntryLock <;> simp
        · rw [if_neg (Ne.symm hu), if_neg (Ne.symm hu), if_neg hu, unlockIf_threads, unlockIf_threads]
          exact h.holds u
      · rw [setThread_threads, unlockIf_threads, unlockIf_threads]
        split_ifs
        · exact fun hplace => absurd rfl hplace
        · exact h.busy u
  | openScope t =>
    cases hstep
    exact Balanced.setThread h rfl id
  | closeScope t =>
    simp only [Process.step] at hstep
    split_ifs at hstep
    cases hstep
    exact Balanced.setThread h rfl id

theorem Process.Reachable.balanced (h : p.Reachable) : p.Balanced := by
  induction h with
  | start => exact Balanced.start
  | step _ hstep ih => exact Balanced.step ih hstep

/-- A thread with an acquisition shuts the others out. -/
theorem Balanced.alone (h : p.Balanced) (ht : 0 < (p.threads t).acquisitions) (hne : t ≠ u) :
    (p.threads u).place = .outside ∧ retained (p.threads u).pendingLaunches = 0 := by
  have hzero : (p.threads u).acquisitions = 0 := by
    rw [← h.holds]
    exact RecursiveMutex.holds_eq_zero (h.holds t ▸ ht) hne
  have hplace : (p.threads u).place = .outside := by
    by_contra hplace
    exact absurd hzero (h.busy u hplace).ne'
  rw [Thread.acquisitions, hplace] at hzero
  exact ⟨hplace, hzero⟩

/-- What a callback does to the launches of its thread. -/
def CudaEvent.Does (e : CudaEvent) (launches launches' : List PendingLaunch) (exit : Option LaunchExit) : Prop :=
  if e.cbid.launches then
    if e.isExit then
      (∃ older launch newer, launches = older ++ launch :: newer ∧ launch.isOf e.ctx e.cbid ∧
        (∀ l ∈ newer, ¬l.isOf e.ctx e.cbid) ∧ launches' = older ++ newer ∧
        exit = some ⟨some launch, newer = []⟩) ∨
      (∀ l ∈ launches, ¬l.isOf e.ctx e.cbid) ∧ launches' = launches ∧ exit = some ⟨none, false⟩
    else launches' = launches ++ [e.entered] ∧ exit = none
  else launches' = launches ∧ exit = none

theorem handle_does (e : CudaEvent) (launches : List PendingLaunch) :
    e.Does launches (e.handle { pendingLaunches := launches }).guard.pendingLaunches
      (e.handle { pendingLaunches := launches }).exit := by
  unfold CudaEvent.Does
  split_ifs with hl hexit
  · rw [handle_exit hl hexit, CudaEvent.take]
    obtain ⟨older, launch, newer, hsplit, hof, hnewer, htake⟩ | ⟨hnone, htake⟩ :=
      takePendingLaunch_cases { pendingLaunches := launches } e.ctx e.cbid
    · exact .inl ⟨older, launch, newer, hsplit, hof, hnewer, by rw [htake], by rw [htake]⟩
    · exact .inr ⟨hnone, by rw [htake], by rw [htake]⟩
  · rw [handle_entry hl (by simpa using hexit)]
    exact ⟨rfl, rfl⟩
  · rw [handle_other (by simpa using hl)]
    exact ⟨rfl, rfl⟩

/-- Only the callback of a thread touches its launches. -/
theorem step_pendingLaunches {m : Move θ} (hstep : p.step m = some p') (hm : m ≠ .handle t) :
    (p'.threads t).pendingLaunches = (p.threads t).pendingLaunches := by
  cases m with
  | arrive u e =>
    simp only [Process.step] at hstep
    split_ifs at hstep
    · rw [Option.some.inj hstep]
    · obtain ⟨m, -, rfl⟩ := Option.map_eq_some_iff.mp hstep
      rw [setThread_threads]
      split_ifs with ht <;> simp [ht]
  | handle u =>
    have hne : t ≠ u := fun h => hm (h ▸ rfl)
    simp only [Process.step] at hstep
    split at hstep
    · cases hstep
      rw [setThread_threads, if_neg hne]
    · cases hstep
  | «return» u =>
    simp only [Process.step] at hstep
    split at hstep
    · split_ifs at hstep
      cases hstep
      rw [setThread_threads, unlockIf_threads, unlockIf_threads]
      split_ifs with ht <;> simp [ht]
    · cases hstep
  | openScope u =>
    cases hstep
    rw [setThread_threads]
    split_ifs with ht <;> simp [ht]
  | closeScope u =>
    simp only [Process.step] at hstep
    split_ifs at hstep
    cases hstep
    rw [setThread_threads]
    split_ifs with ht <;> simp [ht]

/-- A callback is let in unless another thread is in one or has a launch that keeps the mutex. -/
theorem arrive_isSome (h : p.Balanced) (t : θ) (e : CudaEvent) :
    (p.step (.arrive t e)).isSome ↔ (p.threads t).suppressed ∨ ∀ u, u ≠ t →
      (p.threads u).place = .outside ∧ retained (p.threads u).pendingLaunches = 0 := by
  have hfree : ∀ u, p.eventMutex.holds u = 0 ↔
      (p.threads u).place = .outside ∧ retained (p.threads u).pendingLaunches = 0 := by
    intro u
    rw [h.holds]
    constructor
    · intro hzero
      have hplace : (p.threads u).place = .outside := by
        by_contra hplace
        exact absurd hzero (h.busy u hplace).ne'
      rw [Thread.acquisitions, hplace] at hzero
      exact ⟨hplace, hzero⟩
    · rintro ⟨hplace, hzero⟩
      rw [Thread.acquisitions, hplace, hzero]
      rfl
  simp only [Process.step]
  split_ifs with hs
  · simp [hs]
  · rw [Option.isSome_map, RecursiveMutex.lock_isSome]
    simp only [hfree, hs, Bool.false_eq_true, false_or]

theorem Process.Reachable.moves {p p' : Process θ} {ms : List (Move θ)} (h : p.Reachable)
    (hms : ms.foldlM Process.step p = some p') : p'.Reachable := by
  induction ms generalizing p with
  | nil =>
    cases hms
    exact h
  | cons m ms ih =>
    rw [List.foldlM_cons] at hms
    obtain ⟨q, hq, hms⟩ := Option.bind_eq_some_iff.mp hms
    exact ih (.step h hq) hms

/-- Under any interleaving: outside of callbacks a thread holds the mutex once for each launch that
keeps it, no unlock fails, a launch that keeps it shuts other threads out of callbacks, and a callback
puts on and takes off its thread's launches what it should, and nothing else does. -/
theorem launch_guard_balanced {θ : Type} [DecidableEq θ] {p : Process θ} (h : p.Reachable) :
    (∀ t, (p.threads t).place = .outside →
      p.eventMutex.holds t = retained (p.threads t).pendingLaunches) ∧
    p.badUnlock = false ∧
    (∀ t u, t ≠ u → (p.threads t).place ≠ .outside ∨ 0 < retained (p.threads t).pendingLaunches →
      (p.threads u).place = .outside ∧ retained (p.threads u).pendingLaunches = 0) ∧
    (∀ t e, (p.step (.arrive t e)).isSome ↔ (p.threads t).suppressed ∨ ∀ u, u ≠ t →
      (p.threads u).place = .outside ∧ retained (p.threads u).pendingLaunches = 0) ∧
    (∀ t e, (p.threads t).place = .started e → ∃ p' guard exit, p.step (.handle t) = some p' ∧
      (p'.threads t).place = .handled guard exit ∧
      e.Does (p.threads t).pendingLaunches (p'.threads t).pendingLaunches exit) ∧
    ∀ m p' t, p.step m = some p' → m ≠ .handle t →
      (p'.threads t).pendingLaunches = (p.threads t).pendingLaunches := by
  have hb := h.balanced
  refine ⟨?_, hb.unlocks, ?_, arrive_isSome hb, ?_, fun m p' t => step_pendingLaunches⟩
  · intro t ht
    rw [hb.holds, Thread.acquisitions, ht, add_zero]
  · intro t u hne ht
    refine Balanced.alone hb ?_ hne
    obtain hplace | hretained := ht
    · exact hb.busy t hplace
    · exact Nat.add_pos_left hretained _
  · intro t e ht
    simp only [Process.step, ht]
    refine ⟨_, _, _, rfl, by rw [setThread_threads, if_pos rfl], ?_⟩
    rw [setThread_threads, if_pos rfl]
    exact handle_does e _

/-- A launch inside of which its thread launches a graph; the outer one exits first. -/
def crossedLaunches : List (Move ℕ) :=
  [.arrive 0 ⟨1, false, .cuLaunch, false, some 7⟩, .handle 0, .return 0,
    .arrive 0 ⟨1, false, .cuGraphLaunch, false, none⟩, .handle 0, .return 0,
    .arrive 0 ⟨1, true, .cuLaunch, false, none⟩, .handle 0, .return 0]

/-- The graph launch keeps the mutex, and another thread's callback waits. -/
theorem launch_guard_balanced_crossed : ∃ p : Process ℕ,
    crossedLaunches.foldlM Process.step {} = some p ∧ p.channelFailed 1 = true ∧
      p.eventMutex.holds 0 = 1 ∧ p.badUnlock = false ∧ ∀ e, p.step (.arrive 1 e) = none := by
  obtain ⟨p, hp⟩ : ∃ p : Process ℕ, crossedLaunches.foldlM Process.step {} = some p := ⟨_, rfl⟩
  have hr : p.Reachable := Process.Reachable.start.moves hp
  obtain ⟨hholds, hunlocks, -, harrive, -⟩ := launch_guard_balanced hr
  cases hp
  refine ⟨_, rfl, rfl, (hholds 0 rfl).trans rfl, hunlocks, fun e => ?_⟩
  rw [← Option.not_isSome_iff_eq_none, harrive]
  rintro (hs | hall)
  · exact absurd hs (by decide)
  · exact absurd (hall 0 (by decide)).2 (by decide)

end

end

end CuTracer.Hooks
