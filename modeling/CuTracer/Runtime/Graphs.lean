import CuTracer.Library.Dict
import Mathlib.Data.Int.Notation
import Mathlib.Data.List.Induction

/-! Which graph invocation a launch belongs to. The driver reports when a graph launch
begins and when it exits; the launches in between are attached to the invocation that is
innermost in their context. An exit that does not fit retires every invocation of its
context, and a launch must not be lost or handed to two exits on the way. -/

namespace CuTracer.Runtime.Graph

structure Frame (α : Type*) where
  ordinal : UInt64
  stream : UInt64
  api : ℤ
  launches : List α := []

structure RuntimeGraphTracker (α : Type*) where
  next : UInt64 := 0
  frames : Dict UInt64 (List (Frame α)) := .empty

structure Exit (α : Type*) where
  matched : Bool
  launches : List α

variable {α : Type*}

namespace RuntimeGraphTracker

def maxDepth : ℕ := 64

def maxContexts : ℕ := 1024

def maxLaunches : ℕ := 1000000

variable (t : RuntimeGraphTracker α)

/-- The invocations of a context, the innermost last. -/
def framesOf (context : UInt64) : List (Frame α) :=
  (t.frames.get? context).getD []

def setFrames (context : UInt64) (frames : List (Frame α)) : RuntimeGraphTracker α :=
  { t with frames := t.frames.insert context frames }

def erase (context : UInt64) : RuntimeGraphTracker α :=
  { t with frames := t.frames.filter fun key _ => key ≠ context }

/-- The ordinal of the new invocation; a context at its full depth is in the map already. -/
def begin (context stream : UInt64) (api : ℤ) (t : RuntimeGraphTracker α) :
    Except String UInt64 × RuntimeGraphTracker α :=
  if context = 0 ∨ (context ∉ t.frames.keys ∧ maxContexts ≤ t.frames.keys.length) then
    (.error "Invalid or excessive graph contexts", t)
  else if maxDepth ≤ (t.framesOf context).length then
    (.error "Graph invocation depth budget exhausted", t)
  else
    (.ok t.next, { t.setFrames context (t.framesOf context ++ [⟨t.next, stream, api, []⟩]) with
      next := t.next + 1 })

def current (context stream : UInt64) (t : RuntimeGraphTracker α) : Option UInt64 :=
  match (t.framesOf context).getLast? with
  | none => none
  | some frame => if frame.stream = stream then some frame.ordinal else none

def attach (context stream ordinal : UInt64) (launch : α) (t : RuntimeGraphTracker α) :
    Except String Unit × RuntimeGraphTracker α :=
  match (t.framesOf context).getLast? with
  | none => (.error "Graph node has no invocation", t)
  | some frame =>
    if frame.ordinal ≠ ordinal ∨ frame.stream ≠ stream ∨ maxLaunches ≤ frame.launches.length then
      (.error "Graph node invocation changed or exceeded its launch budget", t)
    else
      (.ok (), t.setFrames context
        ((t.framesOf context).dropLast ++ [{ frame with launches := frame.launches ++ [launch] }]))

/-- A fitting exit ends the innermost invocation, any other all of its context. -/
def take (context stream : UInt64) (api : ℤ) (entryMatched : Bool) (t : RuntimeGraphTracker α) :
    Exit α × RuntimeGraphTracker α :=
  match (t.framesOf context).getLast? with
  | none => (⟨false, []⟩, t)
  | some frame =>
    if entryMatched = true ∧ frame.stream = stream ∧ frame.api = api then
      let rest := (t.framesOf context).dropLast
      (⟨true, frame.launches⟩, if rest = [] then t.erase context else t.setFrames context rest)
    else (⟨false, (t.framesOf context).flatMap Frame.launches⟩, t.erase context)

def clear (context : UInt64) (t : RuntimeGraphTracker α) : RuntimeGraphTracker α := t.erase context

end RuntimeGraphTracker

/-! ### Calls and what they did -/

inductive Call (α : Type*) where
  | begin (context stream : UInt64) (api : ℤ)
  | current (context stream : UInt64)
  | attach (context stream ordinal : UInt64) (launch : α)
  | take (context stream : UInt64) (api : ℤ) (entryMatched : Bool)
  | clear (context : UInt64)

/-- What a call did; one that threw or only asked did nothing. -/
inductive Event (α : Type*) where
  | began (context stream : UInt64) (api : ℤ) (ordinal : UInt64)
  | attached (context : UInt64) (launch : α)
  | took (context stream : UInt64) (api : ℤ) (exit : Exit α)
  | cleared (context : UInt64) (discarded : List α)
  | nothing

open RuntimeGraphTracker in
def step (t : RuntimeGraphTracker α) : Call α → RuntimeGraphTracker α × Event α
  | .begin context stream api =>
    match begin context stream api t with
    | (.ok ordinal, t) => (t, .began context stream api ordinal)
    | (.error _, t) => (t, .nothing)
  | .current _ _ => (t, .nothing)
  | .attach context stream ordinal launch =>
    match attach context stream ordinal launch t with
    | (.ok _, t) => (t, .attached context launch)
    | (.error _, t) => (t, .nothing)
  | .take context stream api entryMatched =>
    let (exit, t) := take context stream api entryMatched t
    (t, .took context stream api exit)
  | .clear context => (t.clear context, .cleared context ((t.framesOf context).flatMap Frame.launches))

/-- A tracker and what its calls did, in order. -/
structure World (α : Type*) where
  tracker : RuntimeGraphTracker α := {}
  events : List (Event α) := []

def World.step (w : World α) (call : Call α) : World α :=
  let (tracker, event) := Graph.step w.tracker call
  ⟨tracker, w.events ++ [event]⟩

def run (calls : List (Call α)) : World α := calls.foldl World.step {}

theorem run_concat (calls : List (Call α)) (call : Call α) :
    run (calls ++ [call]) = (run calls).step call := List.foldl_concat ..

/-! ### Where the launches are -/

variable (events : List (Event α))

def attachments : List α :=
  events.filterMap fun
    | .attached _ launch => some launch
    | _ => none

def takes : List (List α) :=
  events.filterMap fun
    | .took _ _ _ exit => some exit.launches
    | _ => none

/-- The launches that a `clear` dropped. -/
def discarded : List α :=
  events.flatMap fun
    | .cleared _ launches => launches
    | _ => []

def RuntimeGraphTracker.held (t : RuntimeGraphTracker α) : List α :=
  t.frames.values.flatMap fun frames => frames.flatMap Frame.launches

@[simp] theorem attachments_concat (es : List (Event α)) (e : Event α) :
    attachments (es ++ [e]) = attachments es ++ attachments [e] := List.filterMap_append

@[simp] theorem takes_concat (es : List (Event α)) (e : Event α) :
    takes (es ++ [e]) = takes es ++ takes [e] := List.filterMap_append

@[simp] theorem discarded_concat (es : List (Event α)) (e : Event α) :
    discarded (es ++ [e]) = discarded es ++ discarded [e] := List.flatMap_append

theorem framesOf_setFrames (t : RuntimeGraphTracker α) (context c : UInt64) (frames : List (Frame α)) :
    (t.setFrames context frames).framesOf c = if c = context then frames else t.framesOf c := by
  unfold RuntimeGraphTracker.framesOf RuntimeGraphTracker.setFrames
  rw [Dict.get?_insert]
  split_ifs <;> rfl

theorem framesOf_erase (t : RuntimeGraphTracker α) (context c : UInt64) :
    (t.erase context).framesOf c = if c = context then [] else t.framesOf c := by
  unfold RuntimeGraphTracker.framesOf RuntimeGraphTracker.erase
  by_cases hc : c = context
  · have hnone : (t.frames.filter fun key _ => key ≠ context).get? c = none := by
      rw [Option.eq_none_iff_forall_not_mem]
      intro frames hframes
      simpa [hc] using (Dict.get?_filter.mp hframes).2
    rw [if_pos hc, hnone]
    rfl
  · rw [if_neg hc]
    congr 1
    ext frames
    simp [Dict.get?_filter, hc]

section Count

variable [DecidableEq α]

/-- How often a launch stands in some frames. -/
def countIn (launch : α) (frames : List (Frame α)) : ℕ := (frames.flatMap Frame.launches).count launch

theorem count_held (t : RuntimeGraphTracker α) (launch : α) :
    t.held.count launch = (t.frames.values.map (countIn launch)).sum := List.count_flatMap

theorem countIn_framesOf (t : RuntimeGraphTracker α) (context : UInt64) (launch : α) :
    ((t.frames.get? context).map (countIn launch)).getD 0 = countIn launch (t.framesOf context) := by
  unfold RuntimeGraphTracker.framesOf
  cases t.frames.get? context <;> rfl

theorem count_held_setFrames (t : RuntimeGraphTracker α) (context : UInt64) (frames : List (Frame α))
    (launch : α) :
    (t.setFrames context frames).held.count launch + countIn launch (t.framesOf context) =
      t.held.count launch + countIn launch frames := by
  rw [count_held, count_held, ← countIn_framesOf]
  exact Dict.sum_insert (countIn launch) t.frames context frames

theorem count_held_erase (t : RuntimeGraphTracker α) (context : UInt64) (launch : α) :
    (t.erase context).held.count launch + countIn launch (t.framesOf context) = t.held.count launch := by
  rw [count_held, count_held, ← countIn_framesOf]
  exact Dict.sum_erase (countIn launch) t.frames context

@[simp] theorem countIn_nil (launch : α) : countIn launch ([] : List (Frame α)) = 0 := rfl

@[simp] theorem countIn_append (launch : α) (fs gs : List (Frame α)) :
    countIn launch (fs ++ gs) = countIn launch fs + countIn launch gs := by
  simp [countIn]

@[simp] theorem countIn_singleton (launch : α) (f : Frame α) :
    countIn launch [f] = f.launches.count launch := by
  simp [countIn]

/-- Every attached launch is in a frame, was returned, or was discarded. -/
def Accounted (w : World α) : Prop :=
  ∀ launch, (attachments w.events).count launch = w.tracker.held.count launch +
    ((takes w.events).map (List.count launch)).sum + (discarded w.events).count launch

end Count

/-! ### The innermost invocation -/

/-- A call that neither attached a launch in a context nor changed its invocations. -/
def Event.Quiet (context : UInt64) : Event α → Prop
  | .began c .. => c ≠ context
  | .attached c _ => c ≠ context
  | .took c .. => c ≠ context
  | .cleared c _ => c ≠ context
  | .nothing => True

/-- A call that ended every invocation of a context. -/
def Event.Resets (context : UInt64) : Event α → Prop
  | .took c _ _ exit => c = context ∧ exit.matched = false
  | .cleared c _ => c = context
  | _ => False

/-- What happened in an invocation that is innermost again, and the launches that were
attached to it, not to one inside it. -/
inductive Own (context : UInt64) : List (Event α) → List α → Prop where
  | nil : Own context [] []
  | quiet {es launches e} (h : Own context es launches) (he : e.Quiet context) :
      Own context (es ++ [e]) launches
  | attached {es launches} (h : Own context es launches) (launch : α) :
      Own context (es ++ [.attached context launch]) (launches ++ [launch])
  | inner {es launches inside taken} (h : Own context es launches) (hinside : Own context inside taken)
      (stream : UInt64) (api : ℤ) (ordinal : UInt64) :
      Own context (es ++ (.began context stream api ordinal :: inside ++
        [.took context stream api ⟨true, taken⟩])) launches

inductive Idle (context : UInt64) : List (Event α) → Prop where
  | start {es} (h : Own context es []) : Idle context es
  | reset {es e} (before : List (Event α)) (he : e.Resets context) (h : Own context es []) :
      Idle context (before ++ [e] ++ es)

/-- The open invocations of a context, the innermost last, each with its own launches. -/
inductive Opened (context : UInt64) : List (Event α) → List (Frame α) → Prop where
  | idle {es} (h : Idle context es) : Opened context es []
  | invocation {es frames inside} (h : Opened context es frames) (f : Frame α)
      (hinside : Own context inside f.launches) :
      Opened context (es ++ .began context f.stream f.api f.ordinal :: inside) (frames ++ [f])

/-- The innermost open invocation of a context is that of this stream and API, and has
these launches. -/
def Innermost (context stream : UInt64) (api : ℤ) (es : List (Event α)) (launches : List α) : Prop :=
  ∃ before ordinal inside,
    es = before ++ .began context stream api ordinal :: inside ∧ Own context inside launches

/-- Events after which the launches of no invocation of a context are others. -/
def Neutral (context : UInt64) (es : List (Event α)) : Prop :=
  ∀ before launches, Own context before launches → Own context (before ++ es) launches

variable {context : UInt64}

theorem Event.Quiet.neutral {e : Event α} (he : e.Quiet context) :
    Neutral context [e] := fun _ _ h => .quiet h he

theorem Idle.extend {es fs : List (Event α)} (h : Idle context es) (hfs : Neutral context fs) :
    Idle context (es ++ fs) := by
  cases h with
  | start h => exact .start (hfs _ _ h)
  | reset before he h =>
    rw [List.append_assoc]
    exact .reset before he (hfs _ _ h)

variable {frames : List (Frame α)}

theorem Opened.extend {es fs : List (Event α)} (h : Opened context es frames)
    (hfs : Neutral context fs) : Opened context (es ++ fs) frames := by
  cases h with
  | idle h => exact .idle (h.extend hfs)
  | invocation h f hinside =>
    rw [List.append_assoc, List.cons_append]
    exact .invocation h f (hfs _ _ hinside)

theorem Opened.reset (es : List (Event α)) {e : Event α} (he : e.Resets context) :
    Opened context (es ++ [e]) [] := by
  have := Idle.reset es he .nil
  rw [List.append_nil] at this
  exact .idle this

variable {es : List (Event α)}

/-- The innermost invocation began where it says, and the others were open then. -/
theorem Opened.last {f : Frame α} (h : Opened context es (frames ++ [f])) :
    ∃ before inside, es = before ++ .began context f.stream f.api f.ordinal :: inside ∧
      Opened context before frames ∧ Own context inside f.launches := by
  generalize hall : frames ++ [f] = all at h
  cases h with
  | idle h => simp at hall
  | invocation h g hinside =>
    obtain ⟨rfl, hg⟩ := List.append_inj' hall rfl
    obtain rfl := List.head_eq_of_cons_eq hg
    exact ⟨_, _, rfl, h, hinside⟩

/-- A launch is attached to the innermost invocation. -/
theorem Opened.attach {f : Frame α} (h : Opened context es (frames ++ [f])) (launch : α) :
    Opened context (es ++ [.attached context launch])
      (frames ++ [{ f with launches := f.launches ++ [launch] }]) := by
  obtain ⟨before, inside, rfl, hbefore, hinside⟩ := h.last
  rw [List.append_assoc, List.cons_append]
  exact .invocation hbefore { f with launches := f.launches ++ [launch] } (.attached hinside launch)

/-- An exit that fits ends the innermost invocation. -/
theorem Opened.exit {f : Frame α} (h : Opened context es (frames ++ [f])) :
    Opened context (es ++ [.took context f.stream f.api ⟨true, f.launches⟩]) frames := by
  obtain ⟨before, inside, rfl, hbefore, hinside⟩ := h.last
  rw [List.append_assoc, List.cons_append]
  exact hbefore.extend fun _ _ hown => .inner hown hinside f.stream f.api f.ordinal

/-! ### What a call does -/

open RuntimeGraphTracker

theorem framesOf_concat {t : RuntimeGraphTracker α} {f : Frame α}
    (h : (t.framesOf context).getLast? = some f) :
    t.framesOf context = (t.framesOf context).dropLast ++ [f] :=
  (List.dropLast_append_getLast? f h).symm

/-- What a call changes: the frames of one context, by what its event says. -/
inductive Stepped (t : RuntimeGraphTracker α) : RuntimeGraphTracker α → Event α → Prop where
  | nothing : Stepped t t .nothing
  | began (context stream : UInt64) (api : ℤ) :
      Stepped t { t.setFrames context (t.framesOf context ++ [⟨t.next, stream, api, []⟩]) with
        next := t.next + 1 } (.began context stream api t.next)
  | attached (context : UInt64) (launch : α) {frames : List (Frame α)} {f : Frame α}
      (h : t.framesOf context = frames ++ [f]) :
      Stepped t (t.setFrames context (frames ++ [{ f with launches := f.launches ++ [launch] }]))
        (.attached context launch)
  | exited (context : UInt64) {frames : List (Frame α)} {f : Frame α}
      (h : t.framesOf context = frames ++ [f]) :
      Stepped t (if frames = [] then t.erase context else t.setFrames context frames)
        (.took context f.stream f.api ⟨true, f.launches⟩)
  | unopened (context stream : UInt64) (api : ℤ) (h : t.framesOf context = []) :
      Stepped t t (.took context stream api ⟨false, []⟩)
  | flushed (context stream : UInt64) (api : ℤ) :
      Stepped t (t.erase context)
        (.took context stream api ⟨false, (t.framesOf context).flatMap Frame.launches⟩)
  | cleared (context : UInt64) :
      Stepped t (t.erase context) (.cleared context ((t.framesOf context).flatMap Frame.launches))

theorem begin_stepped (t : RuntimeGraphTracker α) (context stream : UInt64) (api : ℤ) :
    Stepped t (step t (.begin context stream api)).1 (step t (.begin context stream api)).2 := by
  simp only [step, RuntimeGraphTracker.begin]
  split_ifs with hcontext hdepth
  · exact .nothing
  · exact .nothing
  · exact .began context stream api

theorem attach_stepped (t : RuntimeGraphTracker α) (context stream ordinal : UInt64) (launch : α) :
    Stepped t (step t (.attach context stream ordinal launch)).1
      (step t (.attach context stream ordinal launch)).2 := by
  simp only [step, RuntimeGraphTracker.attach]
  cases hlast : (t.framesOf context).getLast? with
  | none => exact .nothing
  | some f =>
    by_cases hf : f.ordinal ≠ ordinal ∨ f.stream ≠ stream ∨ maxLaunches ≤ f.launches.length
    · simp only [if_pos hf]
      exact .nothing
    · simp only [if_neg hf]
      exact .attached context launch (framesOf_concat hlast)

theorem take_stepped (t : RuntimeGraphTracker α) (context stream : UInt64) (api : ℤ)
    (entryMatched : Bool) :
    Stepped t (step t (.take context stream api entryMatched)).1
      (step t (.take context stream api entryMatched)).2 := by
  simp only [step, RuntimeGraphTracker.take]
  cases hlast : (t.framesOf context).getLast? with
  | none => exact .unopened context stream api (List.getLast?_eq_none_iff.mp hlast)
  | some f =>
    by_cases hf : entryMatched = true ∧ f.stream = stream ∧ f.api = api
    · simp only [if_pos hf]
      obtain ⟨-, rfl, rfl⟩ := hf
      exact .exited context (framesOf_concat hlast)
    · simp only [if_neg hf]
      exact .flushed context stream api

theorem step_stepped (t : RuntimeGraphTracker α) (call : Call α) :
    Stepped t (step t call).1 (step t call).2 := by
  cases call with
  | begin context stream api => exact begin_stepped t context stream api
  | current context stream => exact .nothing
  | attach context stream ordinal launch => exact attach_stepped t context stream ordinal launch
  | take context stream api entryMatched => exact take_stepped t context stream api entryMatched
  | clear context => exact .cleared context

theorem framesOf_exited (t : RuntimeGraphTracker α) (context c : UInt64) (frames : List (Frame α)) :
    (if frames = [] then t.erase context else t.setFrames context frames).framesOf c =
      if c = context then frames else t.framesOf c := by
  by_cases hframes : frames = []
  · rw [if_pos hframes, framesOf_erase, hframes]
  · rw [if_neg hframes, framesOf_setFrames]

/-! ### Along a run -/

theorem World.step_stepped (w : World α) (call : Call α) :
    ∃ event, (w.step call).events = w.events ++ [event] ∧
      Stepped w.tracker (w.step call).tracker event :=
  ⟨(Graph.step w.tracker call).2, rfl, Graph.step_stepped w.tracker call⟩

section Accounts

variable [DecidableEq α]

theorem count_held_exited (t : RuntimeGraphTracker α) (context : UInt64) (frames : List (Frame α))
    (launch : α) :
    (if frames = [] then t.erase context else t.setFrames context frames).held.count launch +
      countIn launch (t.framesOf context) = t.held.count launch + countIn launch frames := by
  by_cases hframes : frames = []
  · rw [if_pos hframes, hframes]
    exact count_held_erase t context launch
  · rw [if_neg hframes]
    exact count_held_setFrames t context frames launch

/-- A launch that a call attaches is held afterwards, and one that is held stays so, is
returned, or is discarded. -/
theorem Stepped.accounts {t t' : RuntimeGraphTracker α} {event : Event α} (h : Stepped t t' event)
    (launch : α) :
    t'.held.count launch + ((takes [event]).map (List.count launch)).sum +
      (discarded [event]).count launch = t.held.count launch + (attachments [event]).count launch := by
  cases h with
  | nothing => simp [attachments, takes, discarded]
  | began context stream api =>
    have hheld := count_held_setFrames t context
      (t.framesOf context ++ [⟨t.next, stream, api, []⟩]) launch
    rw [countIn_append, countIn_singleton, List.count_nil] at hheld
    have hsame : (t.setFrames context (t.framesOf context ++ [⟨t.next, stream, api, []⟩])).held.count
        launch = t.held.count launch := by omega
    simp only [attachments, takes, discarded, List.filterMap_cons, List.filterMap_nil,
      List.flatMap_cons, List.flatMap_nil, List.append_nil, List.map_nil, List.sum_nil, List.count_nil]
    exact hsame
  | @attached context added frames f hframes =>
    have hheld := count_held_setFrames t context
      (frames ++ [{ f with launches := f.launches ++ [added] }]) launch
    rw [hframes, countIn_append, countIn_append, countIn_singleton, countIn_singleton,
      List.count_append] at hheld
    simp only [attachments, takes, discarded, List.filterMap_cons, List.filterMap_nil,
      List.flatMap_cons, List.flatMap_nil, List.append_nil, List.map_nil, List.sum_nil, List.count_nil]
    omega
  | @exited context frames f hframes =>
    have hheld := count_held_exited t context frames launch
    rw [hframes, countIn_append, countIn_singleton] at hheld
    simp only [attachments, takes, discarded, List.filterMap_cons, List.filterMap_nil,
      List.flatMap_cons, List.flatMap_nil, List.append_nil, List.map_cons, List.map_nil, List.sum_cons,
      List.sum_nil, List.count_nil]
    omega
  | unopened context stream api hnone => simp [attachments, takes, discarded]
  | flushed context stream api =>
    have hheld := count_held_erase t context launch
    simpa [attachments, takes, discarded, countIn] using hheld
  | cleared context =>
    have hheld := count_held_erase t context launch
    simpa [attachments, takes, discarded, countIn] using hheld

theorem Accounted.step {w : World α} (h : Accounted w) (call : Call α) : Accounted (w.step call) := by
  intro launch
  obtain ⟨event, hevents, hstepped⟩ := w.step_stepped call
  have hbefore := h launch
  have hstep := hstepped.accounts launch
  rw [hevents, attachments_concat, takes_concat, discarded_concat, List.count_append, List.count_append,
    List.map_append, List.sum_append]
  omega

theorem run_accounted (calls : List (Call α)) : Accounted (run calls) := by
  induction calls using List.reverseRecOn with
  | nil => intro launch; rfl
  | append_singleton calls call ih =>
    rw [run_concat]
    exact ih.step call

end Accounts

theorem Stepped.opened {t t' : RuntimeGraphTracker α} {event : Event α} (h : Stepped t t' event)
    (hes : ∀ c, Opened c es (t.framesOf c)) (c : UInt64) :
    Opened c (es ++ [event]) (t'.framesOf c) := by
  cases h with
  | nothing => exact (hes c).extend (Event.Quiet.neutral trivial)
  | began context stream api =>
    show Opened c _ ((t.setFrames context _).framesOf c)
    rw [framesOf_setFrames]
    by_cases hc : c = context
    · rw [if_pos hc, hc]
      exact .invocation (hes context) ⟨t.next, stream, api, []⟩ .nil
    · rw [if_neg hc]
      exact (hes c).extend (Event.Quiet.neutral (Ne.symm hc))
  | attached context launch hframes =>
    rw [framesOf_setFrames]
    by_cases hc : c = context
    · rw [if_pos hc, hc]
      exact Opened.attach (hframes ▸ hes context) launch
    · rw [if_neg hc]
      exact (hes c).extend (Event.Quiet.neutral (Ne.symm hc))
  | exited context hframes =>
    rw [framesOf_exited]
    by_cases hc : c = context
    · rw [if_pos hc, hc]
      exact Opened.exit (hframes ▸ hes context)
    · rw [if_neg hc]
      exact (hes c).extend (Event.Quiet.neutral (Ne.symm hc))
  | unopened context stream api hnone =>
    by_cases hc : c = context
    · rw [hc, hnone]
      exact .reset es ⟨rfl, rfl⟩
    · exact (hes c).extend (Event.Quiet.neutral (Ne.symm hc))
  | flushed context stream api =>
    rw [framesOf_erase]
    by_cases hc : c = context
    · rw [if_pos hc, hc]
      exact .reset es ⟨rfl, rfl⟩
    · rw [if_neg hc]
      exact (hes c).extend (Event.Quiet.neutral (Ne.symm hc))
  | cleared context =>
    rw [framesOf_erase]
    by_cases hc : c = context
    · rw [if_pos hc, hc]
      exact .reset es rfl
    · rw [if_neg hc]
      exact (hes c).extend (Event.Quiet.neutral (Ne.symm hc))

theorem run_opened (calls : List (Call α)) (context : UInt64) :
    Opened context (run calls).events ((run calls).tracker.framesOf context) := by
  induction calls using List.reverseRecOn generalizing context with
  | nil => exact .idle (.start .nil)
  | append_singleton calls call ih =>
    obtain ⟨event, hevents, hstepped⟩ := (run calls).step_stepped call
    rw [run_concat, hevents]
    exact hstepped.opened ih context

/-- What `current` names is the innermost open invocation, on that stream. -/
theorem current_innermost {calls : List (Call α)} {context stream ordinal : UInt64}
    (h : (run calls).tracker.current context stream = some ordinal) :
    ∃ before api inside launches,
      (run calls).events = before ++ .began context stream api ordinal :: inside ∧
        Own context inside launches := by
  unfold RuntimeGraphTracker.current at h
  cases hlast : ((run calls).tracker.framesOf context).getLast? with
  | none => simp [hlast] at h
  | some f =>
    simp only [hlast, Option.ite_none_right_eq_some, Option.some.injEq] at h
    obtain ⟨rfl, rfl⟩ := h
    have hopened := run_opened calls context
    rw [framesOf_concat hlast] at hopened
    obtain ⟨before, inside, hes, -, hinside⟩ := hopened.last
    exact ⟨before, f.api, inside, f.launches, hes, hinside⟩

/-- An exit that fits returns the launches of the innermost open invocation. -/
theorem Stepped.matched {t t' : RuntimeGraphTracker α} {context stream : UInt64} {api : ℤ}
    {launches : List α} (h : Stepped t t' (.took context stream api ⟨true, launches⟩))
    (hes : Opened context es (t.framesOf context)) : Innermost context stream api es launches := by
  generalize hevent : Event.took context stream api ⟨true, launches⟩ = event at h
  cases h with
  | exited c hframes =>
    simp only [Event.took.injEq, Exit.mk.injEq] at hevent
    obtain ⟨rfl, rfl, rfl, -, rfl⟩ := hevent
    obtain ⟨before, inside, hbefore, -, hinside⟩ := Opened.last (hframes ▸ hes)
    exact ⟨before, _, inside, hbefore, hinside⟩
  | _ => simp at hevent

/-! ### Where a launch ends -/

/-- A launch is in a frame, in what the `i`-th exit returned, or among those cleared. -/
inductive Place where
  | frame
  | take (i : ℕ)
  | clear

def World.At (w : World α) (launch : α) : Place → Prop
  | .frame => launch ∈ w.tracker.held
  | .take i => ∃ launches, (takes w.events)[i]? = some launches ∧ launch ∈ launches
  | .clear => launch ∈ discarded w.events

def Place.index : Place → ℕ
  | .frame => 0
  | .clear => 1
  | .take i => i + 2

theorem Place.index_inj {p q : Place} (h : p.index = q.index) : p = q := by
  cases p <;> cases q <;> simp_all [Place.index]

theorem World.at_iff (w : World α) (launch : α) (p : Place) :
    w.At launch p ↔ ∃ launches,
      (w.tracker.held :: discarded w.events :: takes w.events)[p.index]? = some launches ∧
        launch ∈ launches := by
  cases p <;> simp [World.At, Place.index]

section Unique

variable [DecidableEq α]

/-- Of lists with one occurrence in all, one has it. -/
theorem existsUnique_of_sum_count {launch : α} :
    ∀ {ls : List (List α)}, (ls.map (List.count launch)).sum = 1 →
      ∃! i : ℕ, ∃ l, ls[i]? = some l ∧ launch ∈ l
  | [], h => by simp at h
  | l :: ls, h => by
    rw [List.map_cons, List.sum_cons] at h
    by_cases hl : launch ∈ l
    · have hcount := List.count_pos_iff.mpr hl
      have hrest : (ls.map (List.count launch)).sum = 0 := by omega
      refine ⟨0, ⟨l, rfl, hl⟩, ?_⟩
      rintro (_ | i) ⟨m, hm, hlaunch⟩
      · rfl
      · have hzero := List.sum_eq_zero_iff_forall_eq_nat.mp hrest (m.count launch)
          (List.mem_map_of_mem (List.mem_of_getElem? hm))
        exact absurd hlaunch (List.count_eq_zero.mp hzero)
    · have hcount := List.count_eq_zero.mpr hl
      have hrest : (ls.map (List.count launch)).sum = 1 := by omega
      obtain ⟨i, hi, hunique⟩ := existsUnique_of_sum_count hrest
      refine ⟨i + 1, hi, ?_⟩
      rintro (_ | j) ⟨m, hm, hlaunch⟩
      · cases hm
        exact absurd hlaunch hl
      · rw [hunique j ⟨m, hm, hlaunch⟩]

theorem Accounted.existsUnique {w : World α} (h : Accounted w) {launch : α}
    (hlaunch : (attachments w.events).count launch = 1) : ∃! p, w.At launch p := by
  have hsum : ((w.tracker.held :: discarded w.events :: takes w.events).map
      (List.count launch)).sum = 1 := by
    rw [List.map_cons, List.map_cons, List.sum_cons, List.sum_cons]
    have := h launch
    omega
  obtain ⟨i, hi, hunique⟩ := existsUnique_of_sum_count hsum
  have hplace : ∃ p : Place, p.index = i := by
    match i with
    | 0 => exact ⟨.frame, rfl⟩
    | 1 => exact ⟨.clear, rfl⟩
    | i + 2 => exact ⟨.take i, rfl⟩
  obtain ⟨p, rfl⟩ := hplace
  refine ⟨p, (w.at_iff launch p).mpr hi, fun q hq => ?_⟩
  exact Place.index_inj (hunique _ ((w.at_iff launch q).mp hq))

/-- For any calls: an attached launch is in a frame, was returned by one exit, or was
cleared, each as often as it was attached; and an exit that matched returned the launches
of the innermost open invocation of its context, stream and API. -/
theorem run_attributes (calls : List (Call α)) :
    Accounted (run calls) ∧
    (∀ launch, (attachments (run calls).events).count launch = 1 → ∃! p, (run calls).At launch p) ∧
    ∀ before context stream api launches,
      before ++ [.took context stream api ⟨true, launches⟩] <+: (run calls).events →
        Innermost context stream api before launches := by
  refine ⟨run_accounted calls, fun launch => (run_accounted calls).existsUnique, ?_⟩
  intro before context stream api launches hprefix
  induction calls using List.reverseRecOn with
  | nil => simp [run] at hprefix
  | append_singleton calls call ih =>
    obtain ⟨event, hevents, hstepped⟩ := (run calls).step_stepped call
    rw [run_concat, hevents, List.prefix_concat_iff] at hprefix
    rcases hprefix with hlast | hearlier
    · obtain ⟨rfl, hevent⟩ := List.append_inj' hlast rfl
      obtain rfl := List.head_eq_of_cons_eq hevent
      exact hstepped.matched (run_opened calls context)
    · exact ih hearlier

end Unique

/-- An invocation inside another one of its context, on a stream of its own. -/
def nestedCalls : List (Call ℕ) :=
  [.begin 1 10 1, .attach 1 10 0 100, .begin 1 20 2, .attach 1 20 1 200, .take 1 20 2 true]

theorem run_attributes_nested :
    (∃! p, (run nestedCalls).At 100 p) ∧
    Innermost 1 20 2 [.began 1 10 1 0, .attached 1 100, .began 1 20 2 1, .attached 1 200] [200] := by
  obtain ⟨-, hunique, hmatched⟩ := run_attributes nestedCalls
  exact ⟨hunique 100 (by decide), hmatched _ 1 20 2 [200] (List.prefix_refl _)⟩

/-- The inner invocation is open until its exit. -/
theorem current_innermost_nested : ∃ before api inside launches,
    (run (nestedCalls.take 4)).events = before ++ .began 1 20 api 1 :: inside ∧
      Own 1 inside launches :=
  current_innermost (by decide)

example : takes (run (nestedCalls ++ [.begin 1 20 2, .take 1 20 1 true])).events = [[200], [100]] := by
  decide

end CuTracer.Runtime.Graph
