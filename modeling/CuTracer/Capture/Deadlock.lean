import Mathlib.Data.Finset.Basic
import Mathlib.Data.List.Rotate

/-! Deadlock detection in the receive loop. Every register record updates the tables of
its warp, and after every chunk `check_kernel_hang` looks at the active warps, at most
once a second; the third stalled check in a row raises SIGTERM. The hit counter is not
among the fields that `clear_deadlock_state` clears, so a signal belongs to the launch of
its three checks only where no boundary comes while hits are counted. -/

namespace CuTracer.Capture.Deadlock

/-! ### SASS -/

def isSpace (c : Char) : Bool :=
  c == ' ' || c == '\t' || c == '\n' || c == '\r' || c.toNat == 11 || c.toNat == 12

/-- The mnemonic of a SASS line, behind its predicate if it has one. -/
def extractInstructionName (sassLine : List Char) : List Char :=
  let line := sassLine.dropWhile isSpace
  let line := if line.head? = some '@' then (line.dropWhile (!isSpace ·)).dropWhile isSpace
    else line
  let name := line.takeWhile (!isSpace ·)
  if name = [] then "UNKNOWN".toList else name

def matchesBarrierDeferBlocking (mnemonic : List Char) : Bool :=
  mnemonic = "BAR.SYNC.DEFER_BLOCKING".toList ||
    ("BAR.SYNC".toList.isPrefixOf mnemonic && decide (".DEFER_BLOCKING".toList <:+: mnemonic))

/-! ### Loops of one warp -/

def pcHistoryLen : ℕ := 32

def loopRepeatThresh : ℕ := 3

/-- The shortest period of the PCs that is shorter than their number, 0 if there is none. -/
def period (pcs : List UInt64) : ℕ :=
  ((List.range' 1 (pcs.length - 1)).find? fun p => pcs.drop p == pcs.take (pcs.length - p)).getD 0

/-- The first rotation of a segment that is lexicographically smallest. -/
def minRotation (seg : List UInt64) : ℕ :=
  (List.range' 1 (seg.length - 1)).foldl
    (fun best r => if seg.rotate r < seg.rotate best then r else best) 0

/-- The signature of the loop in a history, with its period; both are 0 without a loop. -/
def canonicalSignature (pcs : List UInt64) : UInt64 × ℕ :=
  let p := period pcs
  if p = 0 then (0, 0)
  else
    let seg := pcs.take p
    ((seg.rotate (minRotation seg)).foldl (fun h pc => (h ^^^ pc) * 1099511628211)
      (14695981039346656037 ^^^ UInt64.ofNat p), p)

/-- `history` is the ring buffer from its oldest entry on, only as far as it is filled. -/
structure WarpLoopState where
  history : List UInt64 := []
  lastSig : UInt64 := 0
  lastPeriod : ℕ := 0
  repeatCnt : ℕ := 0
  loopFlag : Bool := false

def updateLoopState (pc : UInt64) (state : WarpLoopState) : WarpLoopState :=
  let history := (state.history ++ [pc]).drop (state.history.length + 1 - pcHistoryLen)
  if history.length < pcHistoryLen then { state with history }
  else
    let (sig, p) := canonicalSignature history
    let again := sig ≠ 0 ∧ sig = state.lastSig ∧ p = state.lastPeriod
    let repeatCnt := if again then state.repeatCnt + 1 else 1
    { history
      lastSig := sig
      lastPeriod := p
      repeatCnt
      loopFlag := (decide again && state.loopFlag) || decide (loopRepeatThresh < repeatCnt) }

/-! ### The state of a context -/

structure WarpKey where
  ctaX : ℤ
  ctaY : ℤ
  ctaZ : ℤ
  warp : ℤ
  deriving DecidableEq

structure CtxState where
  traceWriters : Finset ℕ
  loopStates : WarpKey → Option WarpLoopState
  activeWarps : Finset WarpKey
  lastHangCheckTime : ℤ
  lastSeenTime : WarpKey → Option ℤ
  exitCandidateSince : WarpKey → Option ℤ
  lastIsDeferBlocking : WarpKey → Option Bool
  consecutiveHits : ℕ
  terminationInitiated : Bool

/-- The tables about warps are emptied; the hit counter is not among them. -/
def clearDeadlockState (s : CtxState) : CtxState :=
  { s with
    loopStates := fun _ => none
    activeWarps := ∅
    lastSeenTime := fun _ => none
    exitCandidateSince := fun _ => none
    lastIsDeferBlocking := fun _ => none }

/-! ### The check -/

def hangCheckThrottleSecs : ℤ := 1

/-- The exit candidates without a record since their EXIT, an interval ago or more. -/
def CtxState.toRemove (now : ℤ) (s : CtxState) : Finset WarpKey :=
  s.activeWarps.filter fun key =>
    (s.exitCandidateSince key).any fun exitSince =>
      (s.lastSeenTime key).getD 0 ≤ exitSince ∧ hangCheckThrottleSecs ≤ now - exitSince

def CtxState.prune (now : ℤ) (s : CtxState) : CtxState :=
  let gone := s.toRemove now
  { s with
    activeWarps := s.activeWarps \ gone
    loopStates := fun key => if key ∈ gone then none else s.loopStates key
    lastSeenTime := fun key => if key ∈ gone then none else s.lastSeenTime key
    exitCandidateSince := fun key => if key ∈ gone then none else s.exitCandidateSince key }

/-- A warp that is neither at a barrier nor in a loop. -/
def CtxState.progressing (s : CtxState) (key : WarpKey) : Bool :=
  !((s.lastIsDeferBlocking key).getD false) && !((s.loopStates key).any WarpLoopState.loopFlag)

/-- There are active warps, and none of them is progressing. -/
def CtxState.candidateHang (s : CtxState) : Bool :=
  s.activeWarps ≠ ∅ ∧ ∀ key ∈ s.activeWarps, s.progressing key = false

/-- What a call of `check_kernel_hang` did: nothing within the interval, else a check
that found the warps stalled or not and raised SIGTERM or not. -/
inductive Outcome where
  | throttled
  | checked (stalled sigterm : Bool)

def checkKernelHang (now : ℤ) (s : CtxState) : Outcome × CtxState :=
  if now - s.lastHangCheckTime < hangCheckThrottleSecs then (.throttled, s)
  else
    let s := { s with lastHangCheckTime := now }
    if s.activeWarps = ∅ then (.checked false false, s)
    else
      let s := s.prune now
      if s.candidateHang then
        if s.terminationInitiated then (.checked true false, s)
        else
          let s := { s with consecutiveHits := s.consecutiveHits + 1 }
          if 3 ≤ s.consecutiveHits then
            (.checked true true, { s with terminationInitiated := true })
          else (.checked true false, s)
      else (.checked false false, { s with consecutiveHits := 0 })

/-! ### The receive loop -/

/-- A register record, with the SASS line and the EXIT flag found for its opcode and the
clock where the code reads it. -/
structure RegInfo where
  key : WarpKey
  pc : UInt64
  numRegs : ℤ
  numUregs : ℤ
  sass : Option (List Char)
  isExit : Bool
  checkTime : ℤ
  seenTime : ℤ
  exitTime : ℤ

def maxRegOperands : ℤ := 16

def maxUregOperands : ℤ := 16

def RegInfo.validCounts (ri : RegInfo) : Prop :=
  0 ≤ ri.numRegs ∧ ri.numRegs ≤ maxRegOperands ∧ 0 ≤ ri.numUregs ∧ ri.numUregs ≤ maxUregOperands

instance (ri : RegInfo) : Decidable ri.validCounts := by
  unfold RegInfo.validCounts
  infer_instance

/-- The messages, as far as the detection tells them apart. -/
inductive Payload where
  | regInfo (info : RegInfo)
  | planObservation
  | other

structure Message where
  launchId : ℕ
  payload : Payload

def recordWarp (isNewKernel : Bool) (ri : RegInfo) (s : CtxState) : CtxState :=
  { s with
    lastHangCheckTime := if isNewKernel then ri.checkTime else s.lastHangCheckTime
    activeWarps := insert ri.key s.activeWarps
    lastSeenTime := Function.update s.lastSeenTime ri.key (some ri.seenTime)
    loopStates := Function.update s.loopStates ri.key
      (some (updateLoopState ri.pc ((s.loopStates ri.key).getD {})))
    lastIsDeferBlocking := Function.update s.lastIsDeferBlocking ri.key
      (some (ri.sass.any fun line => matchesBarrierDeferBlocking (extractInstructionName line)))
    exitCandidateSince :=
      if ri.isExit ∧ s.exitCandidateSince ri.key = none then
        Function.update s.exitCandidateSince ri.key (some ri.exitTime)
      else s.exitCandidateSince }

/-- The receive loop of a context with deadlock detection on. `lastSeenLaunchId` is `none`
for `UINT64_MAX`. `checks` is what the effective checks since the launch began found, and
`signals` the same list at each SIGTERM of `check_kernel_hang`. -/
structure Receiver extends CtxState where
  nextLaunchId : ℕ
  lastSeenLaunchId : Option ℕ
  checks : List Bool
  signals : List (List Bool)

/-- A launch takes the next id of a counter that other contexts take ids from too; the
timeouts only initiate a termination. -/
inductive Event where
  | launch (others : ℕ)
  | message (m : Message)
  | finishCapture (launchId : ℕ)
  | checkHang (now : ℤ)
  | timeout

/-- A message is handled as a record of its launch. -/
def Receiver.accepts (m : Message) (r : Receiver) : Bool :=
  m.launchId ∈ r.traceWriters ∧ ¬m.payload matches .planObservation

/-- The boundary between two launches, which clears what is known about the first. -/
def Receiver.enterKernel (launchId : ℕ) (r : Receiver) : Receiver :=
  if r.lastSeenLaunchId = some launchId then r
  else { r with
    toCtxState := if r.lastSeenLaunchId = none then r.toCtxState else clearDeadlockState r.toCtxState
    lastSeenLaunchId := some launchId
    checks := [] }

def Receiver.handle (m : Message) (r : Receiver) : Receiver :=
  if r.accepts m then
    let isNewKernel := decide (r.lastSeenLaunchId ≠ some m.launchId)
    let r := r.enterKernel m.launchId
    match m.payload with
    | .regInfo ri =>
      if ri.validCounts then { r with toCtxState := recordWarp isNewKernel ri r.toCtxState } else r
    | _ => r
  else r

def finishCapture (launchId : ℕ) (s : CtxState) : CtxState :=
  if launchId ∈ s.traceWriters then
    let s := { s with traceWriters := s.traceWriters.erase launchId }
    if s.traceWriters = ∅ then clearDeadlockState s else s
  else s

def Receiver.checkHang (now : ℤ) (r : Receiver) : Receiver :=
  if r.lastSeenLaunchId = none then r
  else
    match checkKernelHang now r.toCtxState with
    | (.throttled, s) => { r with toCtxState := s }
    | (.checked stalled sigterm, s) => { r with
        toCtxState := s
        checks := r.checks ++ [stalled]
        signals := if sigterm then r.signals ++ [r.checks ++ [stalled]] else r.signals }

def step (r : Receiver) : Event → Receiver
  | .launch others => { r with
      traceWriters := insert (r.nextLaunchId + others) r.traceWriters
      nextLaunchId := r.nextLaunchId + others + 1 }
  | .message m => r.handle m
  | .finishCapture launchId => { r with toCtxState := finishCapture launchId r.toCtxState }
  | .checkHang now => r.checkHang now
  | .timeout => { r with terminationInitiated := true }

def run (r : Receiver) (events : List Event) : Receiver := events.foldl step r

/-- The loop before its first turn; `last_hang_check_time` has no initial value. -/
def Receiver.start (lastHangCheckTime : ℤ) (nextLaunchId : ℕ) : Receiver where
  traceWriters := ∅
  loopStates := fun _ => none
  activeWarps := ∅
  lastHangCheckTime := lastHangCheckTime
  lastSeenTime := fun _ => none
  exitCandidateSince := fun _ => none
  lastIsDeferBlocking := fun _ => none
  consecutiveHits := 0
  terminationInitiated := false
  nextLaunchId := nextLaunchId
  lastSeenLaunchId := none
  checks := []
  signals := []

/-! ### Hits and checks -/

/-- The message ends the launch that the loop is on. -/
def Receiver.boundary (r : Receiver) : Event → Bool
  | .message m => r.accepts m ∧ r.lastSeenLaunchId ≠ none ∧ r.lastSeenLaunchId ≠ some m.launchId
  | _ => false

/-- No boundary of the run comes while hits are counted. -/
def CleanRun : Receiver → List Event → Prop
  | _, [] => True
  | r, e :: es => (r.boundary e = true → r.consecutiveHits = 0) ∧ CleanRun (step r e) es

instance decidableCleanRun : ∀ r events, Decidable (CleanRun r events)
  | _, [] => isTrue trivial
  | r, e :: es => by
    have := decidableCleanRun (step r e) es
    unfold CleanRun
    infer_instance

/-- The launch that the loop is on has no writer any more, and no warp. -/
def Receiver.Over (r : Receiver) : Prop :=
  r.activeWarps = ∅ ∧ ∀ id, r.lastSeenLaunchId = some id → id ∉ r.traceWriters

/-- The hits are stalled checks of the current launch, the last ones it made. -/
structure Receiver.Counts (r : Receiver) : Prop where
  checks : List.replicate r.consecutiveHits true <:+ r.checks
  active : r.activeWarps = ∅ → r.consecutiveHits = 0

structure Sound (r : Receiver) : Prop where
  writers : ∀ id ∈ r.traceWriters, id < r.nextLaunchId
  seen : ∀ id, r.lastSeenLaunchId = some id → id < r.nextLaunchId
  idle : r.lastSeenLaunchId = none → r.consecutiveHits = 0
  counts : r.Over ∨ r.Counts
  signals : ∀ found ∈ r.signals, [true, true, true] <:+ found

theorem sound_start (time : ℤ) (next : ℕ) : Sound (.start time next) where
  writers := by simp [Receiver.start]
  seen := by simp [Receiver.start]
  idle := fun _ => rfl
  counts := .inr ⟨List.nil_suffix, fun _ => rfl⟩
  signals := by simp [Receiver.start]

variable {r : Receiver}

theorem Sound.launch (h : Sound r) (others : ℕ) : Sound (step r (.launch others)) where
  writers := fun id hid => by
    obtain rfl | hid := Finset.mem_insert.mp hid
    · exact Nat.lt_succ_self _
    · have := h.writers id hid
      show id < r.nextLaunchId + others + 1
      omega
  seen := fun id hid => by
    have := h.seen id hid
    show id < r.nextLaunchId + others + 1
    omega
  idle := h.idle
  counts := by
    obtain ⟨hactive, hover⟩ | hcounts := h.counts
    · refine .inl ⟨hactive, fun id hid hmem => ?_⟩
      obtain rfl | hmem := Finset.mem_insert.mp hmem
      · have := h.seen _ hid
        omega
      · exact hover id hid hmem
    · exact .inr ⟨hcounts.checks, hcounts.active⟩
  signals := h.signals

/-- A record keeps the counter and makes its warp active. -/
theorem Sound.recordWarp (h : Sound r) (hcounts : r.Counts) (new : Bool) (ri : RegInfo) :
    Sound { r with toCtxState := Deadlock.recordWarp new ri r.toCtxState } where
  writers := h.writers
  seen := h.seen
  idle := h.idle
  counts := .inr ⟨hcounts.checks, fun hempty => absurd hempty (Finset.insert_ne_empty _ _)⟩
  signals := h.signals

/-- A boundary keeps the writers, the signals and the counter. -/
theorem enterKernel_frame (r : Receiver) (id : ℕ) :
    (r.enterKernel id).traceWriters = r.traceWriters ∧
      (r.enterKernel id).nextLaunchId = r.nextLaunchId ∧
      (r.enterKernel id).signals = r.signals ∧
      (r.enterKernel id).consecutiveHits = r.consecutiveHits ∧
      (r.enterKernel id).lastSeenLaunchId = some id := by
  unfold Receiver.enterKernel
  by_cases hsame : r.lastSeenLaunchId = some id
  · rw [if_pos hsame]
    exact ⟨rfl, rfl, rfl, rfl, hsame⟩
  · rw [if_neg hsame]
    by_cases hnone : r.lastSeenLaunchId = none
    · rw [if_pos hnone]
      exact ⟨rfl, rfl, rfl, rfl, rfl⟩
    · rw [if_neg hnone]
      exact ⟨rfl, rfl, rfl, rfl, rfl⟩

/-- Whatever launch an accepted message is of, the hits are checks of that launch. -/
theorem Sound.enterKernel_counts (h : Sound r) {m : Message} (ha : r.accepts m = true)
    (hclean : r.boundary (.message m) = true → r.consecutiveHits = 0) :
    (r.enterKernel m.launchId).Counts := by
  have hwriter : m.launchId ∈ r.traceWriters := (of_decide_eq_true ha).1
  by_cases hsame : r.lastSeenLaunchId = some m.launchId
  · rw [Receiver.enterKernel, if_pos hsame]
    apply h.counts.resolve_left
    intro hover
    exact hover.2 _ hsame hwriter
  · have hzero : (r.enterKernel m.launchId).consecutiveHits = 0 := by
      rw [(enterKernel_frame r m.launchId).2.2.2.1]
      by_cases hnone : r.lastSeenLaunchId = none
      · exact h.idle hnone
      · exact hclean (decide_eq_true ⟨ha, hnone, hsame⟩)
    constructor
    · rw [hzero]
      exact List.nil_suffix
    · intro _
      exact hzero

theorem Sound.enterKernel (h : Sound r) {m : Message} (ha : r.accepts m = true)
    (hclean : r.boundary (.message m) = true → r.consecutiveHits = 0) :
    Sound (r.enterKernel m.launchId) := by
  have hwriter : m.launchId ∈ r.traceWriters := (of_decide_eq_true ha).1
  obtain ⟨hwriters, hnext, hsignals, -, hseen⟩ := enterKernel_frame r m.launchId
  constructor
  · rw [hwriters, hnext]
    exact h.writers
  · intro id hid
    rw [hseen] at hid
    cases hid
    rw [hnext]
    exact h.writers _ hwriter
  · intro hnone
    rw [hseen] at hnone
    cases hnone
  · exact .inr (h.enterKernel_counts ha hclean)
  · rw [hsignals]
    exact h.signals

theorem Sound.message (h : Sound r) (m : Message)
    (hclean : r.boundary (.message m) = true → r.consecutiveHits = 0) :
    Sound (step r (.message m)) := by
  show Sound (r.handle m)
  unfold Receiver.handle
  by_cases ha : r.accepts m = true
  · rw [if_pos ha]
    have henter := h.enterKernel ha hclean
    cases hp : m.payload with
    | regInfo ri =>
      by_cases hv : ri.validCounts
      · simp only [if_pos hv]
        exact henter.recordWarp (h.enterKernel_counts ha hclean) _ ri
      · simp only [if_neg hv]
        exact henter
    | planObservation => exact henter
    | other => exact henter
  · rw [if_neg ha]
    exact h

theorem Sound.finishCapture (h : Sound r) (id : ℕ) : Sound (step r (.finishCapture id)) := by
  show Sound { r with toCtxState := Deadlock.finishCapture id r.toCtxState }
  unfold Deadlock.finishCapture
  by_cases hid : id ∈ r.traceWriters
  · rw [if_pos hid]
    have hwriters : ∀ i ∈ r.traceWriters.erase id, i < r.nextLaunchId := fun i hi =>
      h.writers i (Finset.mem_of_mem_erase hi)
    by_cases hlast : r.traceWriters.erase id = ∅
    · simp only [if_pos hlast]
      refine ⟨hwriters, h.seen, h.idle, .inl ⟨rfl, fun i _ hi => ?_⟩, h.signals⟩
      exact absurd hi (by rw [clearDeadlockState, hlast]; exact Finset.notMem_empty i)
    · simp only [if_neg hlast]
      refine ⟨hwriters, h.seen, h.idle, ?_, h.signals⟩
      obtain hover | hcounts := h.counts
      · exact .inl ⟨hover.1, fun i hi hmem => hover.2 i hi (Finset.mem_of_mem_erase hmem)⟩
      · exact .inr ⟨hcounts.checks, hcounts.active⟩
  · rw [if_neg hid]
    exact h

/-! ### The check -/

/-- What a check can do: a stalled one counts a hit unless a termination is under way. -/
inductive Checked (s : CtxState) : Outcome × CtxState → Prop where
  | throttled : Checked s (.throttled, s)
  | idle (time : ℤ) (hactive : s.activeWarps = ∅) :
      Checked s (.checked false false, { s with lastHangCheckTime := time })
  | moving {t : CtxState} (hwriters : t.traceWriters = s.traceWriters)
      (hactive : s.activeWarps ≠ ∅) (hhits : t.consecutiveHits = 0) :
      Checked s (.checked false false, t)
  | ignored {t : CtxState} (hwriters : t.traceWriters = s.traceWriters)
      (hbefore : s.activeWarps ≠ ∅) (hactive : t.activeWarps ≠ ∅)
      (hhits : t.consecutiveHits = s.consecutiveHits) : Checked s (.checked true false, t)
  | hit {t : CtxState} {sigterm : Bool} (hwriters : t.traceWriters = s.traceWriters)
      (hbefore : s.activeWarps ≠ ∅) (hactive : t.activeWarps ≠ ∅)
      (hhits : t.consecutiveHits = s.consecutiveHits + 1)
      (hthird : sigterm = true → 3 ≤ t.consecutiveHits) : Checked s (.checked true sigterm, t)

theorem checkKernelHang_checked (now : ℤ) (s : CtxState) : Checked s (checkKernelHang now s) := by
  unfold checkKernelHang
  by_cases hthrottle : now - s.lastHangCheckTime < hangCheckThrottleSecs
  · rw [if_pos hthrottle]
    exact .throttled
  rw [if_neg hthrottle]
  by_cases hidle : s.activeWarps = ∅
  · simp only [if_pos hidle]
    exact .idle now hidle
  simp only [if_neg hidle]
  -- pruning changes neither the writers nor the counter
  generalize hpruned : CtxState.prune now { s with lastHangCheckTime := now } = t
  have hwriters : t.traceWriters = s.traceWriters := hpruned ▸ rfl
  have hhits : t.consecutiveHits = s.consecutiveHits := hpruned ▸ rfl
  by_cases hhang : t.candidateHang = true
  · have hactive := (of_decide_eq_true hhang).1
    rw [if_pos hhang]
    by_cases hterm : t.terminationInitiated = true
    · rw [if_pos hterm]
      exact .ignored hwriters hidle hactive hhits
    · rw [if_neg hterm]
      by_cases hthird : 3 ≤ t.consecutiveHits + 1
      · rw [if_pos hthird]
        exact .hit hwriters hidle hactive (by rw [hhits]) fun _ => hthird
      · rw [if_neg hthird]
        exact .hit hwriters hidle hactive (by rw [hhits]) fun h => by cases h
  · rw [if_neg hhang]
    exact .moving hwriters hidle rfl

/-- A check that found the warps stalled is one more at the end of the list. -/
theorem replicate_succ_suffix {n : ℕ} {checks : List Bool}
    (h : List.replicate n true <:+ checks) : List.replicate (n + 1) true <:+ checks ++ [true] := by
  rw [List.replicate_succ']
  obtain ⟨earlier, rfl⟩ := h
  exact ⟨earlier, by rw [List.append_assoc]⟩

theorem replicate_suffix_of_le {m n : ℕ} {checks : List Bool} (hmn : m ≤ n)
    (h : List.replicate n true <:+ checks) : List.replicate m true <:+ checks := by
  refine List.IsSuffix.trans ⟨List.replicate (n - m) true, ?_⟩ h
  rw [← List.replicate_add, Nat.sub_add_cancel hmn]

theorem Sound.checkHang (h : Sound r) (now : ℤ) : Sound (step r (.checkHang now)) := by
  show Sound (r.checkHang now)
  unfold Receiver.checkHang
  by_cases hnone : r.lastSeenLaunchId = none
  · rw [if_pos hnone]
    exact h
  rw [if_neg hnone]
  have hseen {n : ℕ} (hlast : r.lastSeenLaunchId = none) : n = 0 := absurd hlast hnone
  generalize hc : checkKernelHang now r.toCtxState = c
  have hchecked : Checked r.toCtxState c := hc ▸ checkKernelHang_checked now r.toCtxState
  cases hchecked with
  | throttled => exact h
  | idle time hactive =>
    refine ⟨h.writers, h.seen, h.idle, ?_, h.signals⟩
    obtain hover | hcounts := h.counts
    · exact .inl hover
    · have hzero := hcounts.active hactive
      refine .inr ⟨?_, fun _ => hzero⟩
      show List.replicate r.consecutiveHits true <:+ _
      rw [hzero]
      exact List.nil_suffix
  | moving hwriters hactive hhits =>
    refine ⟨by rw [hwriters]; exact h.writers, h.seen, hseen, .inr ⟨?_, fun _ => hhits⟩, h.signals⟩
    rw [hhits]
    exact List.nil_suffix
  | ignored hwriters hbefore hactive hhits =>
    have hcounts := h.counts.resolve_left fun hover => hbefore hover.1
    refine ⟨by rw [hwriters]; exact h.writers, h.seen, hseen,
      .inr ⟨?_, fun hempty => absurd hempty hactive⟩, h.signals⟩
    rw [hhits]
    exact replicate_suffix_of_le (Nat.le_succ _) (replicate_succ_suffix hcounts.checks)
  | @hit t sigterm hwriters hbefore hactive hhits hthird =>
    have hcounts := h.counts.resolve_left fun hover => hbefore hover.1
    have hchecks : List.replicate t.consecutiveHits true <:+ r.checks ++ [true] := by
      rw [hhits]
      exact replicate_succ_suffix hcounts.checks
    refine ⟨by rw [hwriters]; exact h.writers, h.seen, hseen,
      .inr ⟨hchecks, fun hempty => absurd hempty hactive⟩, ?_⟩
    cases sigterm with
    | false => exact h.signals
    | true =>
      intro found hfound
      obtain hold | hnew := List.mem_append.mp hfound
      · exact h.signals found hold
      · rw [List.mem_singleton.mp hnew]
        exact replicate_suffix_of_le (hthird rfl) hchecks

/-! ### Runs -/

theorem Sound.step (h : Sound r) (e : Event)
    (hclean : r.boundary e = true → r.consecutiveHits = 0) : Sound (Deadlock.step r e) := by
  cases e with
  | launch others => exact h.launch others
  | message m => exact h.message m hclean
  | finishCapture id => exact h.finishCapture id
  | checkHang now => exact h.checkHang now
  | timeout =>
    refine ⟨h.writers, h.seen, h.idle, ?_, h.signals⟩
    obtain hover | hcounts := h.counts
    · exact .inl hover
    · exact .inr ⟨hcounts.checks, hcounts.active⟩

theorem Sound.run (h : Sound r) {events : List Event} (hclean : CleanRun r events) :
    Sound (Deadlock.run r events) := by
  induction events generalizing r with
  | nil => exact h
  | cons e es ih => exact ih (h.step e hclean.1) hclean.2

/-- In a run without a boundary while hits are counted, the last three effective checks
since the launch began were stalled whenever `check_kernel_hang` raises SIGTERM. -/
theorem run_signals {time : ℤ} {next : ℕ} {events : List Event}
    (hclean : CleanRun (.start time next) events) :
    ∀ found ∈ (run (.start time next) events).signals, [true, true, true] <:+ found :=
  ((sound_start time next).run hclean).signals

def barrierRecord (launchId : ℕ) (now : ℤ) : Event :=
  .message ⟨launchId, .regInfo
    { key := ⟨0, 0, 0, 0⟩
      pc := 16
      numRegs := 0
      numUregs := 0
      sass := some "BAR.SYNC.DEFER_BLOCKING 0x0 ;".toList
      isExit := false
      checkTime := now
      seenTime := now
      exitTime := now }⟩

/-- Two stalled checks of launch 0, which then ends, and one of launch 1. -/
def twoLaunches : List Event :=
  [.launch 0, barrierRecord 0 10, .checkHang 10, .checkHang 11, .checkHang 12, .finishCapture 0,
    .launch 0, .checkHang 12, barrierRecord 1 13, .checkHang 13, .checkHang 14]

/-- The third stalled check may be the first one of its launch. -/
theorem signal_after_one_check : (run (.start 0 0) twoLaunches).signals = [[true]] ∧
    ¬∀ time next events, ∀ found ∈ (run (.start time next) events).signals,
      [true, true, true] <:+ found := by
  have hsignals : (run (.start 0 0) twoLaunches).signals = [[true]] := by decide +kernel
  refine ⟨hsignals, fun h => ?_⟩
  have hsuffix := h 0 0 twoLaunches [true] (by rw [hsignals]; exact List.mem_singleton_self _)
  exact absurd hsuffix (by decide)

def oneLaunch : List Event := twoLaunches.take 5 ++ [.checkHang 13]

theorem run_signals_small : (run (.start 0 0) oneLaunch).signals = [[true, true, true]] ∧
    ∀ found ∈ (run (.start 0 0) oneLaunch).signals, [true, true, true] <:+ found :=
  ⟨by decide +kernel, run_signals (by decide +kernel)⟩

end CuTracer.Capture.Deadlock
