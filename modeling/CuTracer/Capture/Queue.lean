import Mathlib.Data.List.Basic

/-! The queue through which threads ask the receiver to finish captures, and the barrier
on which they wait for it. Every operation holds the mutex, so an interleaving of threads
is a sequence of operations; a wait is one operation that takes a ticket and one that
reads the barrier when it returns. -/

namespace CuTracer.Capture.Queue

/-! ### The queue -/

structure CaptureCompletionRequest where
  launchId : ℕ
  kernelCompleted : Bool
  channelDrained : Bool
  error : String
  deriving DecidableEq

structure CaptureCompletionQueue where
  pending : List CaptureCompletionRequest := []
  graphLaunches : List ℕ := []
  barrier : ℕ := 0
  takenBarrier : ℕ := 0
  finishedBarrier : ℕ := 0

namespace CaptureCompletionQueue

def request (r : CaptureCompletionRequest) (q : CaptureCompletionQueue) : CaptureCompletionQueue :=
  { q with pending := q.pending ++ [r] }

def registerGraphLaunch (launchId : ℕ) (q : CaptureCompletionQueue) : CaptureCompletionQueue :=
  { q with graphLaunches := q.graphLaunches ++ [launchId] }

def graphRequests (kernelCompleted channelDrained : Bool) (error : String)
    (q : CaptureCompletionQueue) : List CaptureCompletionRequest :=
  q.graphLaunches.map fun launchId => ⟨launchId, kernelCompleted, channelDrained, error⟩

def requestGraphCompletion (kernelCompleted channelDrained : Bool) (error : String)
    (q : CaptureCompletionQueue) : CaptureCompletionQueue :=
  { q with
    pending := q.pending ++ q.graphRequests kernelCompleted channelDrained error
    graphLaunches := [] }

variable (q : CaptureCompletionQueue)

def takeAtChunkBoundary : List CaptureCompletionRequest × CaptureCompletionQueue :=
  (q.pending, { q with takenBarrier := q.barrier, pending := [] })

def finishedChunkBoundary : CaptureCompletionQueue :=
  { q with finishedBarrier := q.takenBarrier }

/-- The ticket with which a call of `wait_for_receiver` waits. -/
def ticket : ℕ × CaptureCompletionQueue :=
  (q.barrier + 1, { q with barrier := q.barrier + 1 })

/-- The predicate of the wait, which is also its result. -/
def reached (barrier : ℕ) (q : CaptureCompletionQueue) : Bool := barrier ≤ q.finishedBarrier

end CaptureCompletionQueue

/-! ### Threads -/

/-- A request in the history, and whether a graph launch made it. -/
structure Offer where
  request : CaptureCompletionRequest
  graph : Bool

/-- A call of `wait_for_receiver`, and the requests that were enqueued before it. -/
structure Wait where
  barrier : ℕ
  before : List CaptureCompletionRequest

/-- A call that returned, and the batches that were finished by then. -/
structure Returned where
  before : List CaptureCompletionRequest
  finished : List (List CaptureCompletionRequest)
  result : Bool

/-- The queue, the receiver and the waiting threads, with what happened so far. -/
structure System extends CaptureCompletionQueue where
  receiving : Bool := false
  waits : ℕ → Option Wait := fun _ => none
  enqueued : List Offer := []
  registered : List ℕ := []
  batches : List (List CaptureCompletionRequest) := []
  finished : List (List CaptureCompletionRequest) := []
  returned : List Returned := []

inductive Action where
  | request (r : CaptureCompletionRequest)
  | registerGraphLaunch (launchId : ℕ)
  | requestGraphCompletion (kernelCompleted channelDrained : Bool) (error : String)
  | take
  | finish
  | waitBegin (thread : ℕ)
  | waitReturn (thread : ℕ)

/-- An operation of some thread, if the thread can make it: the receiver takes and
finishes in turn, and a thread waits once at a time. A wait may return at any time, as its
timeout may end at any time. -/
def step : Action → System → Option System
  | .request r, s => some { s with
      toCaptureCompletionQueue := s.toCaptureCompletionQueue.request r
      enqueued := s.enqueued ++ [⟨r, false⟩] }
  | .registerGraphLaunch launchId, s => some { s with
      toCaptureCompletionQueue := s.toCaptureCompletionQueue.registerGraphLaunch launchId
      registered := s.registered ++ [launchId] }
  | .requestGraphCompletion completed drained error, s => some { s with
      toCaptureCompletionQueue :=
        s.toCaptureCompletionQueue.requestGraphCompletion completed drained error
      enqueued := s.enqueued ++
        (s.toCaptureCompletionQueue.graphRequests completed drained error).map (⟨·, true⟩) }
  | .take, s =>
    if s.receiving then none
    else some { s with
      toCaptureCompletionQueue := s.toCaptureCompletionQueue.takeAtChunkBoundary.2
      receiving := true
      batches := s.batches ++ [s.toCaptureCompletionQueue.takeAtChunkBoundary.1] }
  | .finish, s =>
    if s.receiving then some { s with
      toCaptureCompletionQueue := s.toCaptureCompletionQueue.finishedChunkBoundary
      receiving := false
      finished := s.batches }
    else none
  | .waitBegin thread, s =>
    match s.waits thread with
    | some _ => none
    | none => some { s with
        toCaptureCompletionQueue := s.toCaptureCompletionQueue.ticket.2
        waits := Function.update s.waits thread
          (some ⟨s.toCaptureCompletionQueue.ticket.1, s.enqueued.map Offer.request⟩) }
  | .waitReturn thread, s =>
    match s.waits thread with
    | none => none
    | some wait => some { s with
        waits := Function.update s.waits thread none
        returned := s.returned ++
          [⟨wait.before, s.finished, s.toCaptureCompletionQueue.reached wait.barrier⟩] }

def run (actions : List Action) (s : System) : Option System := actions.foldlM (fun s a => step a s) s

/-! ### The invariant -/

abbrev System.handed (s : System) : List CaptureCompletionRequest := s.batches.flatten

/-- Nothing is lost or reordered, and a ticket that the receiver reached is behind the
requests that were enqueued before it. -/
structure Ordered (s : System) : Prop where
  handed : s.handed ++ s.pending = s.enqueued.map Offer.request
  graph : ((s.enqueued.filter Offer.graph).map fun o => o.request.launchId) ++ s.graphLaunches =
    s.registered
  finished : s.finished <+: s.batches
  before : ∀ thread wait, s.waits thread = some wait → wait.before <+: s.enqueued.map Offer.request
  ticket : ∀ thread wait, s.waits thread = some wait → wait.barrier ≤ s.barrier
  taken : ∀ thread wait, s.waits thread = some wait → wait.barrier ≤ s.takenBarrier →
    wait.before <+: s.handed
  reached : ∀ thread wait, s.waits thread = some wait → wait.barrier ≤ s.finishedBarrier →
    wait.before <+: s.finished.flatten
  barriers : s.finishedBarrier ≤ s.takenBarrier ∧ s.takenBarrier ≤ s.barrier
  returned : ∀ r ∈ s.returned, r.result = true → r.before <+: r.finished.flatten

theorem ordered_start : Ordered {} := by
  constructor <;> simp

theorem filter_graph_map (rs : List CaptureCompletionRequest) :
    (rs.map fun r => (⟨r, true⟩ : Offer)).filter Offer.graph = rs.map fun r => ⟨r, true⟩ :=
  List.filter_eq_self.mpr fun o ho => by
    obtain ⟨r, -, rfl⟩ := List.mem_map.mp ho
    rfl

theorem Ordered.request {s : System} (h : Ordered s) (r : CaptureCompletionRequest) :
    Ordered { s with
      toCaptureCompletionQueue := s.toCaptureCompletionQueue.request r
      enqueued := s.enqueued ++ [⟨r, false⟩] } := by
  refine ⟨?_, ?_, h.finished, ?_, h.ticket, h.taken, h.reached, h.barriers, h.returned⟩
  · simp [CaptureCompletionQueue.request, ← h.handed, System.handed]
  · simpa [CaptureCompletionQueue.request] using h.graph
  · intro thread wait hwait
    rw [List.map_append]
    exact (h.before thread wait hwait).trans (List.prefix_append _ _)

theorem Ordered.requestGraphCompletion {s : System} (h : Ordered s) (completed drained : Bool)
    (error : String) :
    Ordered { s with
      toCaptureCompletionQueue :=
        s.toCaptureCompletionQueue.requestGraphCompletion completed drained error
      enqueued := s.enqueued ++
        (s.toCaptureCompletionQueue.graphRequests completed drained error).map (⟨·, true⟩) } := by
  refine ⟨?_, ?_, h.finished, ?_, h.ticket, h.taken, h.reached, h.barriers, h.returned⟩
  · simp [CaptureCompletionQueue.requestGraphCompletion, ← h.handed, System.handed,
      Function.comp_def]
  · rw [List.filter_append, filter_graph_map]
    simp [CaptureCompletionQueue.requestGraphCompletion, CaptureCompletionQueue.graphRequests,
      ← h.graph, Function.comp_def]
  · intro thread wait hwait
    rw [List.map_append]
    exact (h.before thread wait hwait).trans (List.prefix_append _ _)

/-- Everything enqueued so far is handed over, so every ticket may count on it. -/
theorem Ordered.take {s : System} (h : Ordered s) :
    Ordered { s with
      toCaptureCompletionQueue := s.toCaptureCompletionQueue.takeAtChunkBoundary.2
      receiving := true
      batches := s.batches ++ [s.toCaptureCompletionQueue.takeAtChunkBoundary.1] } := by
  have hall : (s.batches ++ [s.pending]).flatten = s.enqueued.map Offer.request := by
    simpa [System.handed] using h.handed
  refine ⟨?_, h.graph, h.finished.trans (List.prefix_append _ _), h.before, h.ticket, ?_,
    h.reached, ⟨Nat.le_trans h.barriers.1 h.barriers.2, Nat.le_refl _⟩, h.returned⟩
  · show (s.batches ++ [s.pending]).flatten ++ [] = s.enqueued.map Offer.request
    rw [List.append_nil, hall]
  · intro thread wait hwait _
    show wait.before <+: (s.batches ++ [s.pending]).flatten
    rw [hall]
    exact h.before thread wait hwait

theorem Ordered.finish {s : System} (h : Ordered s) :
    Ordered { s with
      toCaptureCompletionQueue := s.toCaptureCompletionQueue.finishedChunkBoundary
      receiving := false
      finished := s.batches } :=
  ⟨h.handed, h.graph, List.prefix_refl _, h.before, h.ticket, h.taken, h.taken,
    ⟨Nat.le_refl _, h.barriers.2⟩, h.returned⟩

theorem Ordered.waitBegin {s : System} (h : Ordered s) (thread : ℕ) :
    Ordered { s with
      toCaptureCompletionQueue := s.toCaptureCompletionQueue.ticket.2
      waits := Function.update s.waits thread
        (some ⟨s.toCaptureCompletionQueue.ticket.1, s.enqueued.map Offer.request⟩) } := by
  have hsplit : ∀ other wait, Function.update s.waits thread
      (some ⟨s.barrier + 1, s.enqueued.map Offer.request⟩) other = some wait →
      wait = ⟨s.barrier + 1, s.enqueued.map Offer.request⟩ ∨ s.waits other = some wait := by
    intro other wait hwait
    by_cases heq : other = thread
    · subst heq
      rw [Function.update_self] at hwait
      exact .inl (Option.some.inj hwait).symm
    · rw [Function.update_of_ne heq] at hwait
      exact .inr hwait
  have hbarriers := h.barriers
  refine ⟨h.handed, h.graph, h.finished, ?_, ?_, ?_, ?_,
    ⟨h.barriers.1, Nat.le_succ_of_le h.barriers.2⟩, h.returned⟩
  · intro other wait hwait
    rcases hsplit other wait hwait with rfl | hwait
    · exact List.prefix_refl _
    · exact h.before other wait hwait
  · intro other wait hwait
    rcases hsplit other wait hwait with rfl | hwait
    · exact Nat.le_refl _
    · exact Nat.le_succ_of_le (h.ticket other wait hwait)
  · intro other wait hwait htaken
    rcases hsplit other wait hwait with rfl | hwait
    · -- a new ticket is ahead of what the receiver has seen
      simp only [CaptureCompletionQueue.ticket] at htaken
      omega
    · exact h.taken other wait hwait htaken
  · intro other wait hwait hreached
    rcases hsplit other wait hwait with rfl | hwait
    · simp only [CaptureCompletionQueue.ticket] at hreached
      omega
    · exact h.reached other wait hwait hreached

theorem Ordered.waitReturn {s : System} (h : Ordered s) {thread : ℕ} {wait : Wait}
    (hwait : s.waits thread = some wait) :
    Ordered { s with
      waits := Function.update s.waits thread none
      returned := s.returned ++
        [⟨wait.before, s.finished, s.toCaptureCompletionQueue.reached wait.barrier⟩] } := by
  have hother : ∀ other wait', Function.update s.waits thread none other = some wait' →
      s.waits other = some wait' := by
    intro other wait' hwait'
    by_cases heq : other = thread
    · subst heq
      rw [Function.update_self] at hwait'
      cases hwait'
    · rwa [Function.update_of_ne heq] at hwait'
  refine ⟨h.handed, h.graph, h.finished, fun t v hv => h.before t v (hother t v hv),
    fun t v hv => h.ticket t v (hother t v hv), fun t v hv => h.taken t v (hother t v hv),
    fun t v hv => h.reached t v (hother t v hv), h.barriers, ?_⟩
  intro r hr hresult
  rcases List.mem_append.mp hr with hr | hr
  · exact h.returned r hr hresult
  · obtain rfl := List.mem_singleton.mp hr
    exact h.reached thread wait hwait (of_decide_eq_true hresult)

theorem Ordered.step {a : Action} {s s' : System} (h : Ordered s)
    (hstep : Queue.step a s = some s') : Ordered s' := by
  cases a with
  | request r =>
    cases hstep
    exact h.request r
  | registerGraphLaunch launchId =>
    cases hstep
    refine ⟨h.handed, ?_, h.finished, h.before, h.ticket, h.taken, h.reached, h.barriers,
      h.returned⟩
    simp [CaptureCompletionQueue.registerGraphLaunch, ← h.graph]
  | requestGraphCompletion completed drained error =>
    cases hstep
    exact h.requestGraphCompletion completed drained error
  | take =>
    simp only [Queue.step] at hstep
    split_ifs at hstep
    cases hstep
    exact h.take
  | finish =>
    simp only [Queue.step] at hstep
    split_ifs at hstep
    cases hstep
    exact h.finish
  | waitBegin thread =>
    simp only [Queue.step] at hstep
    split at hstep
    · cases hstep
    · cases hstep
      exact h.waitBegin thread
  | waitReturn thread =>
    simp only [Queue.step] at hstep
    split at hstep
    · cases hstep
    · rename_i wait hwait
      cases hstep
      exact h.waitReturn hwait

/-! ### Runs -/

def Extends (s s' : System) : Prop :=
  s.batches <+: s'.batches ∧ s.enqueued <+: s'.enqueued

theorem step_extends {a : Action} {s s' : System} (hstep : Queue.step a s = some s') :
    Extends s s' := by
  cases a <;> simp only [Queue.step] at hstep
  case request r =>
    cases hstep
    exact ⟨List.prefix_refl _, List.prefix_append _ _⟩
  case registerGraphLaunch launchId =>
    cases hstep
    exact ⟨List.prefix_refl _, List.prefix_refl _⟩
  case requestGraphCompletion completed drained error =>
    cases hstep
    exact ⟨List.prefix_refl _, List.prefix_append _ _⟩
  case take =>
    split_ifs at hstep
    cases hstep
    exact ⟨List.prefix_append _ _, List.prefix_refl _⟩
  case finish =>
    split_ifs at hstep
    cases hstep
    exact ⟨List.prefix_refl _, List.prefix_refl _⟩
  case waitBegin thread =>
    split at hstep
    · cases hstep
    · cases hstep
      exact ⟨List.prefix_refl _, List.prefix_refl _⟩
  case waitReturn thread =>
    split at hstep
    · cases hstep
    · cases hstep
      exact ⟨List.prefix_refl _, List.prefix_refl _⟩

theorem run_cons {a : Action} {actions : List Action} {s t : System}
    (h : run (a :: actions) s = some t) :
    ∃ m, Queue.step a s = some m ∧ run actions m = some t := by
  rw [run, List.foldlM_cons] at h
  cases hm : Queue.step a s with
  | none =>
    rw [hm] at h
    cases h
  | some m =>
    rw [hm] at h
    exact ⟨m, rfl, h⟩

theorem run_append {as bs : List Action} {s t : System} (h : run (as ++ bs) s = some t) :
    ∃ m, run as s = some m ∧ run bs m = some t := by
  induction as generalizing s with
  | nil => exact ⟨s, rfl, h⟩
  | cons a as ih =>
    obtain ⟨m, hm, hrest⟩ := run_cons h
    obtain ⟨n, hn, hbs⟩ := ih hrest
    refine ⟨n, ?_, hbs⟩
    rw [run, List.foldlM_cons, hm]
    exact hn

theorem Ordered.run {actions : List Action} {s s' : System} (h : Ordered s)
    (hrun : Queue.run actions s = some s') : Ordered s' := by
  induction actions generalizing s with
  | nil =>
    cases hrun
    exact h
  | cons a actions ih =>
    obtain ⟨m, hm, hrest⟩ := run_cons hrun
    exact ih (h.step hm) hrest

theorem run_extends {actions : List Action} {s s' : System}
    (hrun : Queue.run actions s = some s') : Extends s s' := by
  induction actions generalizing s with
  | nil =>
    cases hrun
    exact ⟨List.prefix_refl _, List.prefix_refl _⟩
  | cons a actions ih =>
    obtain ⟨m, hm, hrest⟩ := run_cons hrun
    exact ⟨(step_extends hm).1.trans (ih hrest).1, (step_extends hm).2.trans (ih hrest).2⟩

/-- The launches of the requests that graph completions made, in order. -/
def System.completedLaunches (s : System) : List ℕ :=
  (s.enqueued.filter Offer.graph).map fun o => o.request.launchId

/-- A take hands over everything enqueued before it. -/
theorem handed_of_take {s m t : System} {post : List Action} (h : Ordered s)
    (htake : Queue.step .take s = some m) (hpost : Queue.run post m = some t) :
    s.enqueued.map Offer.request <+: t.handed := by
  simp only [Queue.step] at htake
  split_ifs at htake
  cases htake
  obtain ⟨rest, hrest⟩ := (run_extends hpost).1
  refine ⟨rest.flatten, ?_⟩
  rw [System.handed, ← hrest, ← h.handed]
  simp [CaptureCompletionQueue.takeAtChunkBoundary]

/-- A graph completion makes a request for every launch registered before it. -/
theorem completed_of_graphCompletion {s m t : System} {post : List Action} {completed drained : Bool}
    {error : String} (h : Ordered s)
    (hgraph : Queue.step (.requestGraphCompletion completed drained error) s = some m)
    (hpost : Queue.run post m = some t) : s.registered <+: t.completedLaunches := by
  cases hgraph
  obtain ⟨rest, hrest⟩ := (run_extends hpost).2
  refine ⟨(rest.filter Offer.graph).map fun o => o.request.launchId, ?_⟩
  rw [System.completedLaunches, ← hrest, ← h.graph, List.filter_append, List.filter_append,
    filter_graph_map]
  simp [CaptureCompletionQueue.graphRequests, Function.comp_def]

/-- The queue is a correct barrier in every interleaving. What was enqueued is what was
handed over followed by what is pending, so no request is lost, doubled or overtaken, and
a take hands over all of it; the same holds of the registered graph launches. A wait that
returns true returns after the batches with all requests from before it were finished. -/
theorem run_barrier {actions : List Action} {s : System} (hrun : run actions {} = some s) :
    s.handed ++ s.pending = s.enqueued.map Offer.request ∧
    s.completedLaunches ++ s.graphLaunches = s.registered ∧
    (∀ pre post, actions = pre ++ .take :: post → ∃ m, run pre {} = some m ∧
      m.enqueued.map Offer.request <+: s.handed) ∧
    (∀ pre post completed drained error,
      actions = pre ++ .requestGraphCompletion completed drained error :: post →
        ∃ m, run pre {} = some m ∧ m.registered <+: s.completedLaunches) ∧
    ∀ r ∈ s.returned, r.result = true → r.before <+: r.finished.flatten := by
  have h := ordered_start.run hrun
  refine ⟨h.handed, h.graph, ?_, ?_, h.returned⟩
  · rintro pre post rfl
    obtain ⟨m, hm, hrest⟩ := run_append hrun
    obtain ⟨m', htake, hpost⟩ := run_cons hrest
    exact ⟨m, hm, handed_of_take (ordered_start.run hm) htake hpost⟩
  · rintro pre post completed drained error rfl
    obtain ⟨m, hm, hrest⟩ := run_append hrun
    obtain ⟨m', hgraph, hpost⟩ := run_cons hrest
    exact ⟨m, hm, completed_of_graphCompletion (ordered_start.run hm) hgraph hpost⟩

/-- A wait behind one request and one graph launch. -/
def waitActions : List Action :=
  [.request ⟨7, true, true, ""⟩, .registerGraphLaunch 9, .requestGraphCompletion true true "",
    .waitBegin 0, .take, .finish, .waitReturn 0]

theorem run_barrier_small : ∃ s, run waitActions {} = some s ∧
    s.returned.map Returned.result = [true] ∧
    ∀ r ∈ s.returned, r.result = true → r.before <+: r.finished.flatten :=
  ⟨_, rfl, rfl, (@run_barrier waitActions _ rfl).2.2.2.2⟩

end CuTracer.Capture.Queue
