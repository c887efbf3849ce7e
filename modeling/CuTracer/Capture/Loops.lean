import CuTracer.Capture.Deadlock
import CuTracer.Capture.Records
import CuTracer.Library.Cycle

/-! Loop detection over the ring buffer of one warp. The last 32 register records are kept,
merged with the memory record that came before them; once the buffer is full, every record
gives the shortest period of the PCs in it and a signature of one period that does not
depend on where the period starts. Four windows in a row with the same signature raise the
flag, and the records of one period are copied out. -/

namespace CuTracer.Capture.Loops

open Records (RegInfo MemAddrAccess Lanes)
open Deadlock (pcHistoryLen loopRepeatThresh period minRotation canonicalSignature)

/-! ### The state of a warp -/

structure TraceRecordMerged where
  reg : RegInfo
  hasMem : Bool := false
  memAddrs : Lanes UInt64 := fun _ => 0

/-- `TraceRecordMerged()`. -/
def TraceRecordMerged.blank : TraceRecordMerged where
  reg := ⟨0, 0, 0, 0, 0, 0, fun _ _ => 0, 0, 0, 0, fun _ => 0, 0⟩

def TraceRecordMerged.pc (r : TraceRecordMerged) : UInt64 := r.reg.pc

/-- The records of one period, from the oldest in the buffer on. -/
structure LoopInfo where
  instructions : List TraceRecordMerged := []
  period : ℕ := 0

/-- `head` is the next position that is written, which is that of the oldest entry. -/
structure WarpLoopState where
  history : List TraceRecordMerged := []
  head : ℕ := 0
  filled : ℕ := 0
  lastSig : UInt64 := 0
  lastPeriod : ℕ := 0
  repeatCnt : UInt32 := 0
  loopFlag : Bool := false
  firstLoopTime : ℤ := 0
  currentLoop : LoopInfo := {}

namespace WarpLoopState

def slot (s : WarpLoopState) (i : ℕ) : TraceRecordMerged :=
  s.history.getD ((s.head + i) % pcHistoryLen) .blank

/-- The buffer from the oldest entry to the newest. -/
def linear (s : WarpLoopState) : List TraceRecordMerged := (List.range pcHistoryLen).map s.slot

/-- The buffer is allocated at a warp's first record. -/
def allocate (s : WarpLoopState) : WarpLoopState :=
  if s.history.length = pcHistoryLen then s
  else { s with history := List.replicate pcHistoryLen .blank, head := 0, filled := 0 }

def push (r : TraceRecordMerged) (s : WarpLoopState) : WarpLoopState :=
  { s with
    history := s.history.set s.head r
    head := (s.head + 1) % pcHistoryLen
    filled := if s.filled < pcHistoryLen then s.filled + 1 else s.filled }

/-- The records of one period, from the oldest in the buffer on. -/
def capture (s : WarpLoopState) (p : ℕ) : LoopInfo := ⟨(List.range p).map s.slot, p⟩

/-- What a full buffer of this signature and period says about its newest record. -/
def observe (now : ℤ) (sig : UInt64) (p : ℕ) (s : WarpLoopState) : WarpLoopState :=
  let s :=
    if sig ≠ 0 ∧ sig = s.lastSig ∧ p = s.lastPeriod then { s with repeatCnt := s.repeatCnt + 1 }
    else { s with repeatCnt := 1, loopFlag := false }
  let s :=
    if loopRepeatThresh < s.repeatCnt.toNat ∧ s.loopFlag = false then
      { s with loopFlag := true, firstLoopTime := now, currentLoop := s.capture p }
    else s
  { s with lastSig := sig, lastPeriod := p }

end WarpLoopState

/-- The pending memory record that is of the same instruction. -/
def isOf (ri : RegInfo) (mem : MemAddrAccess) : Bool := mem.pc = ri.pc ∧ mem.opcodeId = ri.opcodeId

def merge (ri : RegInfo) (pending : List MemAddrAccess) : TraceRecordMerged :=
  match pending.find? (isOf ri) with
  | some mem => { reg := ri, hasMem := true, memAddrs := mem.addrs }
  | none => { reg := ri }

/-- `update_loop_state`, with the memory records that stay pending. -/
def updateLoopState (ri : RegInfo) (pending : List MemAddrAccess) (now : ℤ) (s : WarpLoopState) :
    WarpLoopState × List MemAddrAccess :=
  let s := s.allocate.push (merge ri pending)
  let s :=
    if s.filled < pcHistoryLen then s
    else
      let (sig, p) := canonicalSignature (s.linear.map TraceRecordMerged.pc)
      s.observe now sig p
  (s, pending.eraseP (isOf ri))

/-- A register record of the warp, with the memory records pending when it comes. -/
structure Arrival where
  ri : RegInfo
  pending : List MemAddrAccess
  now : ℤ

def Arrival.merged (a : Arrival) : TraceRecordMerged := merge a.ri a.pending

def Arrival.pc (a : Arrival) : UInt64 := a.ri.pc

def step (s : WarpLoopState) (a : Arrival) : WarpLoopState :=
  (updateLoopState a.ri a.pending a.now s).1

def run (arrivals : List Arrival) : WarpLoopState := arrivals.foldl step {}

theorem run_concat (arrivals : List Arrival) (a : Arrival) :
    run (arrivals ++ [a]) = step (run arrivals) a := List.foldl_concat ..

theorem pc_merged (a : Arrival) : a.merged.pc = a.pc := by
  unfold Arrival.merged merge
  cases a.pending.find? (isOf a.ri) <;> rfl

/-! ### Periods and signatures -/

/-- The signature of a cycle: the hash of its least rotation, seeded with its length. -/
def signature (c : List UInt64) : UInt64 :=
  (c.rotate (minRotation c)).foldl (fun h pc => (h ^^^ pc) * 1099511628211)
    (14695981039346656037 ^^^ UInt64.ofNat c.length)

theorem signature_rotate {c d : List UInt64} (h : c ~r d) : signature c = signature d := by
  have hleast : c.rotate (minRotation c) = d.rotate (minRotation d) :=
    Cycle.rotate_leastRotation_eq (fun hab => List.lt_asymm hab)
      (fun hab hbc => List.le_trans hbc hab) (fun hab hba => List.le_antisymm hba hab) h
  unfold signature
  rw [hleast, h.perm.length_eq]

/-- `period` is a period, and no shorter one is. -/
theorem period_spec (pcs : List UInt64) :
    List.HasPeriod pcs (period pcs) ∧ (period pcs ≠ 0 → period pcs < pcs.length) ∧
      ∀ q, 0 < q → q < pcs.length → List.HasPeriod pcs q → 0 < period pcs ∧ period pcs ≤ q := by
  unfold period
  cases hfind : (List.range' 1 (pcs.length - 1)).find?
      (fun p => pcs.drop p == pcs.take (pcs.length - p)) with
  | none =>
    refine ⟨List.hasPeriod_zero pcs, fun h => absurd rfl h, fun q hq hlt hperiod => ?_⟩
    have hno := List.find?_eq_none.mp hfind q (List.mem_range'_1.mpr (by omega))
    exact absurd (Cycle.hasPeriod_iff_drop.mp hperiod) (by simpa using hno)
  | some p =>
    obtain ⟨hp, hmem, hfirst⟩ := List.find?_range'_eq_some.mp hfind
    rw [beq_iff_eq] at hp
    rw [List.mem_range'_1] at hmem
    refine ⟨Cycle.hasPeriod_iff_drop.mpr hp, fun _ => by simp only [Option.getD_some]; omega, ?_⟩
    intro q hq hlt hperiod
    refine ⟨by simp only [Option.getD_some]; omega, ?_⟩
    by_contra hless
    rw [Option.getD_some, Nat.not_le] at hless
    have hno := hfirst q hq hless
    rw [Cycle.hasPeriod_iff_drop.mp hperiod] at hno
    simp at hno

/-- Without a period the signature is 0; with one it is that of the first cycle. -/
theorem canonicalSignature_eq (pcs : List UInt64) :
    canonicalSignature pcs =
      if period pcs = 0 then (0, 0) else (signature (pcs.take (period pcs)), period pcs) := by
  unfold canonicalSignature
  by_cases hzero : period pcs = 0
  · simp only [if_pos hzero]
  · have hlength : (pcs.take (period pcs)).length = period pcs := by
      rw [List.length_take]
      have := (period_spec pcs).2.1 hzero
      omega
    simp only [if_neg hzero, signature, hlength]

theorem canonicalSignature_snd (pcs : List UInt64) : (canonicalSignature pcs).2 = period pcs := by
  rw [canonicalSignature_eq]
  split_ifs with hzero
  · exact hzero.symm
  · rfl

/-- A window of a repeated primitive cycle has its length as period and its signature. -/
theorem canonicalSignature_factor {post : List UInt64} {p s : ℕ}
    (hprimitive : Cycle.Primitive (post.take p)) (hpost : List.HasPeriod post p) (hp : 0 < p)
    (hshort : p ≤ 16) (hfactor : s + pcHistoryLen ≤ post.length) :
    canonicalSignature ((post.drop s).take pcHistoryLen) = (signature (post.take p), p) := by
  have hwindow : ((post.drop s).take pcHistoryLen).length = pcHistoryLen := by
    rw [List.length_take, List.length_drop]
    omega
  have hlen : pcHistoryLen = 32 := rfl
  have hperiod : List.HasPeriod ((post.drop s).take pcHistoryLen) p :=
    hpost.infix ((List.take_prefix _ _).isInfix.trans (List.drop_suffix s post).isInfix)
  obtain ⟨hown, -, hleast⟩ := period_spec ((post.drop s).take pcHistoryLen)
  obtain ⟨hpos, hle⟩ := hleast p hp (by omega) hperiod
  have hge := hprimitive.le_of_factor hpost hfactor (by omega) hpos hown
  have heq : period ((post.drop s).take pcHistoryLen) = p := by omega
  rw [canonicalSignature_eq, heq, if_neg (by omega), List.take_take, Nat.min_eq_left (by omega)]
  have hrotated : post.take p ~r (post.drop s).take p := Cycle.isRotated_factor hpost (by omega)
  rw [signature_rotate hrotated]

/-! ### The ring buffer -/

/-- The last records, behind blank ones while there are not enough. -/
def lastRecords (ms : List TraceRecordMerged) : List TraceRecordMerged :=
  (List.replicate pcHistoryLen TraceRecordMerged.blank ++ ms).drop ms.length

theorem length_lastRecords (ms : List TraceRecordMerged) : (lastRecords ms).length = pcHistoryLen := by
  simp [lastRecords]

theorem lastRecords_concat (ms : List TraceRecordMerged) (r : TraceRecordMerged) :
    lastRecords (ms ++ [r]) = (lastRecords ms).tail ++ [r] := by
  unfold lastRecords
  rw [← List.append_assoc, List.length_append, List.length_singleton, List.tail_drop,
    List.drop_append_of_le_length (by simp [pcHistoryLen])]

variable {ms : List TraceRecordMerged}

theorem lastRecords_of_le (h : pcHistoryLen ≤ ms.length) :
    lastRecords ms = ms.drop (ms.length - pcHistoryLen) := by
  unfold lastRecords
  rw [List.drop_append, List.length_replicate, List.drop_eq_nil_of_le (by simpa using h),
    List.nil_append]

/-- The buffer holds the last records, the oldest at the head. -/
structure Holds (ms : List TraceRecordMerged) (s : WarpLoopState) : Prop where
  history : s.history.rotate s.head = lastRecords ms
  head : s.head < pcHistoryLen
  filled : s.filled = min ms.length pcHistoryLen

variable {s : WarpLoopState}

theorem Holds.length (h : Holds ms s) : s.history.length = pcHistoryLen := by
  rw [← List.length_rotate s.history s.head, h.history, length_lastRecords]

theorem Holds.linear (h : Holds ms s) : s.linear = lastRecords ms := by
  have hlength := h.length
  rw [← h.history]
  apply List.ext_getElem
  · simp [WarpLoopState.linear, hlength]
  · intro i hi hi'
    have hin : (i + s.head) % pcHistoryLen < s.history.length := by
      rw [hlength]
      exact Nat.mod_lt _ (by decide)
    rw [List.getElem_rotate]
    simp only [WarpLoopState.linear, WarpLoopState.slot, List.getElem_map, List.getElem_range,
      List.getD_eq_getElem?_getD, Nat.add_comm s.head i, List.getElem?_eq_getElem hin,
      Option.getD_some, hlength]

theorem Holds.push (h : Holds ms s) (r : TraceRecordMerged) : Holds (ms ++ [r]) (s.push r) where
  history := by
    have hlength := h.length
    show (s.history.set s.head r).rotate ((s.head + 1) % pcHistoryLen) = _
    rw [show pcHistoryLen = (s.history.set s.head r).length by rw [List.length_set, hlength],
      List.rotate_mod, Cycle.rotate_set _ (by rw [hlength]; exact h.head), h.history,
      lastRecords_concat]
  head := Nat.mod_lt _ (by decide)
  filled := by
    have hfilled := h.filled
    show (if s.filled < pcHistoryLen then s.filled + 1 else s.filled) = _
    rw [List.length_append, List.length_singleton]
    split_ifs <;> omega

theorem holds_allocate (s : WarpLoopState) (h : s.history = []) : Holds [] s.allocate := by
  have hlength : ¬s.history.length = pcHistoryLen := by
    rw [h]
    decide
  unfold WarpLoopState.allocate
  rw [if_neg hlength]
  refine ⟨?_, Nat.zero_lt_succ 31, rfl⟩
  show (List.replicate pcHistoryLen _).rotate 0 = _
  rw [List.rotate_zero]
  simp [lastRecords]

theorem Holds.allocate (h : Holds ms s) :
    s.allocate = s := if_pos h.length

variable {p : ℕ}

theorem capture_instructions (h : Holds ms s) (hp : p ≤ pcHistoryLen) :
    (s.capture p).instructions = (lastRecords ms).take p := by
  rw [← h.linear]
  show (List.range p).map s.slot = ((List.range pcHistoryLen).map s.slot).take p
  rw [← List.map_take, List.take_range, Nat.min_eq_left hp]

/-! ### One record -/

/-- The window has a signature, and it is the one of the window before. -/
def Again (s : WarpLoopState) (sig : UInt64) (p : ℕ) : Prop :=
  sig ≠ 0 ∧ sig = s.lastSig ∧ p = s.lastPeriod

/-- What a full buffer does to the counter, the flag and the copied loop. -/
inductive Observed (s : WarpLoopState) (now : ℤ) (sig : UInt64) (p : ℕ) : WarpLoopState → Prop where
  | reset (h : ¬Again s sig p) : Observed s now sig p
      { s with repeatCnt := 1, loopFlag := false, lastSig := sig, lastPeriod := p }
  | looping (h : Again s sig p) (hflag : s.loopFlag = true) : Observed s now sig p
      { s with repeatCnt := s.repeatCnt + 1, lastSig := sig, lastPeriod := p }
  | counting (h : Again s sig p) (hflag : s.loopFlag = false)
      (hcount : (s.repeatCnt + 1).toNat ≤ loopRepeatThresh) : Observed s now sig p
      { s with repeatCnt := s.repeatCnt + 1, lastSig := sig, lastPeriod := p }
  | raised (h : Again s sig p) (hflag : s.loopFlag = false)
      (hcount : loopRepeatThresh < (s.repeatCnt + 1).toNat) : Observed s now sig p
      { s with
        repeatCnt := s.repeatCnt + 1
        loopFlag := true
        firstLoopTime := now
        currentLoop := s.capture p
        lastSig := sig
        lastPeriod := p }

theorem observe_observed (s : WarpLoopState) (now : ℤ) (sig : UInt64) (p : ℕ) :
    Observed s now sig p (s.observe now sig p) := by
  unfold WarpLoopState.observe
  by_cases hagain : Again s sig p
  · simp only [if_pos (show sig ≠ 0 ∧ sig = s.lastSig ∧ p = s.lastPeriod from hagain)]
    by_cases hflag : s.loopFlag = true
    · rw [if_neg (by simp [hflag])]
      exact .looping hagain hflag
    · rw [Bool.not_eq_true] at hflag
      by_cases hcount : loopRepeatThresh < (s.repeatCnt + 1).toNat
      · rw [if_pos ⟨hcount, hflag⟩]
        exact .raised hagain hflag hcount
      · rw [if_neg fun h => hcount h.1]
        exact .counting hagain hflag (Nat.le_of_not_lt hcount)
  · simp only [if_neg (show ¬(sig ≠ 0 ∧ sig = s.lastSig ∧ p = s.lastPeriod) from hagain)]
    rw [if_neg fun h => absurd h.1 (by decide)]
    exact .reset hagain

/-- The signature and the period of the last records, once there are enough. -/
structure Window (ms : List TraceRecordMerged) (sig : UInt64) (p : ℕ) : Prop where
  full : pcHistoryLen ≤ ms.length
  eq : canonicalSignature ((lastRecords ms).map TraceRecordMerged.pc) = (sig, p)

variable {sig : UInt64}

theorem Window.period_eq (h : Window ms sig p) :
    period ((lastRecords ms).map TraceRecordMerged.pc) = p := by
  rw [← canonicalSignature_snd, h.eq]

theorem Window.hasPeriod (h : Window ms sig p) :
    ((lastRecords ms).map TraceRecordMerged.pc).HasPeriod p := by
  have hspec := (period_spec ((lastRecords ms).map TraceRecordMerged.pc)).1
  rwa [h.period_eq] at hspec

theorem Window.lt (h : Window ms sig p) (hp : p ≠ 0) : p < pcHistoryLen := by
  have hspec := (period_spec ((lastRecords ms).map TraceRecordMerged.pc)).2.1
  rw [h.period_eq, List.length_map, length_lastRecords] at hspec
  exact hspec hp

theorem Window.nonzero (h : Window ms sig p) (hsig : sig ≠ 0) : p ≠ 0 := by
  rintro rfl
  have heq := h.eq
  rw [canonicalSignature_eq, if_pos h.period_eq] at heq
  exact hsig (congrArg Prod.fst heq).symm

theorem Window.suffix (h : Window ms sig p) : lastRecords ms <:+ ms := by
  rw [lastRecords_of_le h.full]
  exact List.drop_suffix _ _

/-- The copied records are one period, and stand in the part that repeats. -/
structure Captured (s : WarpLoopState) (v : List TraceRecordMerged) : Prop where
  period : s.currentLoop.period = s.lastPeriod
  nonzero : s.lastPeriod ≠ 0
  length : s.currentLoop.instructions.length = s.lastPeriod
  inside : s.currentLoop.instructions <:+: v

/-- The records since when all windows have had one signature. -/
structure Repeats (ms : List TraceRecordMerged) (s : WarpLoopState) (v : List TraceRecordMerged) :
    Prop where
  suffix : v <:+ ms
  period : (v.map TraceRecordMerged.pc).HasPeriod s.lastPeriod
  count : s.loopFlag = false → 31 + s.repeatCnt.toNat ≤ v.length
  flag : s.loopFlag = true → 35 ≤ v.length ∧ Captured s v

/-- What the state of a warp says about its records. -/
structure Sound (ms : List TraceRecordMerged) (s : WarpLoopState) : Prop where
  holds : Holds ms s.allocate
  early : ms.length < pcHistoryLen → s.lastSig = 0 ∧ s.loopFlag = false
  window : pcHistoryLen ≤ ms.length → Window ms s.lastSig s.lastPeriod
  small : s.loopFlag = false → s.repeatCnt.toNat ≤ loopRepeatThresh
  positive : pcHistoryLen ≤ ms.length → s.loopFlag = false → 1 ≤ s.repeatCnt.toNat
  repeats : pcHistoryLen ≤ ms.length → ∃ v, Repeats ms s v

theorem sound_start : Sound [] {} where
  holds := holds_allocate _ rfl
  early := fun _ => ⟨rfl, rfl⟩
  window := fun h => absurd h (by decide)
  small := fun _ => by decide
  positive := fun h => absurd h (by decide)
  repeats := fun h => absurd h (by decide)

theorem toNat_succ {n : UInt32} (h : n.toNat ≤ loopRepeatThresh) : (n + 1).toNat = n.toNat + 1 := by
  have hle : n.toNat ≤ 3 := h
  rw [UInt32.toNat_add]
  show (n.toNat + 1) % 4294967296 = n.toNat + 1
  omega

/-- The buffer with a record pushed; nothing else changes. -/
theorem fields_pushed (s : WarpLoopState) (r : TraceRecordMerged) :
    (s.allocate.push r).lastSig = s.lastSig ∧ (s.allocate.push r).lastPeriod = s.lastPeriod ∧
      (s.allocate.push r).repeatCnt = s.repeatCnt ∧ (s.allocate.push r).loopFlag = s.loopFlag ∧
        (s.allocate.push r).currentLoop = s.currentLoop := by
  unfold WarpLoopState.allocate
  split_ifs <;> exact ⟨rfl, rfl, rfl, rfl, rfl⟩

/-- While the buffer fills, nothing is known. -/
theorem Sound.fill (h : Sound ms s) (r : TraceRecordMerged)
    (hshort : (ms ++ [r]).length < pcHistoryLen) : Sound (ms ++ [r]) (s.allocate.push r) := by
  obtain ⟨hsig, hperiod, hcount, hflag, -⟩ := fields_pushed s r
  have hpushed := h.holds.push r
  have hearly := h.early (by rw [List.length_append] at hshort; omega)
  refine ⟨by rwa [hpushed.allocate], fun _ => ⟨hsig.trans hearly.1, hflag.trans hearly.2⟩,
    fun hfull => absurd hshort (Nat.not_lt.mpr hfull), fun hoff => ?_,
    fun hfull => absurd hshort (Nat.not_lt.mpr hfull), fun hfull => absurd hshort (Nat.not_lt.mpr hfull)⟩
  rw [hcount]
  exact h.small (hflag ▸ hoff)

variable {r : TraceRecordMerged}

/-- A record whose window has the signature of the one before goes on with the repetition. -/
theorem Sound.extend (h : Sound ms s) (hwindow : Window (ms ++ [r]) sig p)
    (hagain : Again s sig p) :
    pcHistoryLen ≤ ms.length ∧ ∃ v, Repeats ms s v ∧ v ++ [r] <:+ ms ++ [r] ∧
      ((v ++ [r]).map TraceRecordMerged.pc).HasPeriod p ∧ lastRecords (ms ++ [r]) <:+ v ++ [r] := by
  obtain ⟨hnonzero, hsame, hsameperiod⟩ := hagain
  have hfull : pcHistoryLen ≤ ms.length := by
    by_contra hlt
    exact hnonzero (hsame.trans (h.early (Nat.not_le.mp hlt)).1)
  obtain ⟨v, hv⟩ := h.repeats hfull
  have h32 : pcHistoryLen = 32 := rfl
  have hlong : pcHistoryLen ≤ v.length := by
    cases hon : s.loopFlag with
    | true =>
      have h35 := (hv.flag hon).1
      omega
    | false =>
      have hone := h.positive hfull hon
      have hlen := hv.count hon
      omega
  have hsuffix : v ++ [r] <:+ ms ++ [r] := by
    obtain ⟨t, rfl⟩ := hv.suffix
    exact ⟨t, by rw [List.append_assoc]⟩
  have hinside : lastRecords (ms ++ [r]) <:+ v ++ [r] := by
    refine List.suffix_of_suffix_length_le hwindow.suffix hsuffix ?_
    rw [length_lastRecords, List.length_append]
    omega
  have hmap := hinside.map TraceRecordMerged.pc
  rw [List.map_append] at hmap
  refine ⟨hfull, v, hv, hsuffix, ?_, hinside⟩
  rw [List.map_append]
  refine Cycle.hasPeriod_concat (hsameperiod ▸ hv.period) hwindow.hasPeriod hmap ?_
  rw [List.length_map, length_lastRecords]
  exact hwindow.lt (hwindow.nonzero hnonzero)

theorem Holds.of_fields {s t : WarpLoopState} (h : Holds ms s) (hhistory : t.history = s.history)
    (hhead : t.head = s.head) (hfilled : t.filled = s.filled) : Holds ms t.allocate := by
  have hsame : Holds ms t :=
    ⟨by rw [hhistory, hhead, h.history], hhead ▸ h.head, hfilled.trans h.filled⟩
  rwa [hsame.allocate]

/-- A window of another signature begins a new count. -/
theorem Window.reset {t : WarpLoopState} (h : Window ms sig p) (hholds : Holds ms t) :
    Sound ms { t with repeatCnt := 1, loopFlag := false, lastSig := sig, lastPeriod := p } where
  holds := hholds.of_fields rfl rfl rfl
  early := fun hshort => absurd h.full (Nat.not_le.mpr hshort)
  window := fun _ => h
  small := fun _ => Nat.le_of_ble_eq_true rfl
  positive := fun _ _ => le_refl 1
  repeats := fun _ => ⟨lastRecords ms, h.suffix, h.hasPeriod, fun _ => by
    rw [length_lastRecords]
    exact le_refl 32, nofun⟩

/-- In a loop the counter may wrap; the flag and the copied records stay. -/
theorem Sound.looping {s t : WarpLoopState} (h : Sound ms s) (hwindow : Window (ms ++ [r]) sig p)
    (hholds : Holds (ms ++ [r]) t) (hagain : Again s sig p) (hon : s.loopFlag = true)
    (hflag : t.loopFlag = s.loopFlag) (hloop : t.currentLoop = s.currentLoop) :
    Sound (ms ++ [r]) { t with repeatCnt := t.repeatCnt + 1, lastSig := sig, lastPeriod := p } where
  holds := hholds.of_fields rfl rfl rfl
  early := fun hshort => absurd hwindow.full (Nat.not_le.mpr hshort)
  window := fun _ => hwindow
  small := fun hoff => absurd (hoff.symm.trans (hflag.trans hon)) Bool.false_ne_true
  positive := fun _ hoff => absurd (hoff.symm.trans (hflag.trans hon)) Bool.false_ne_true
  repeats := fun _ => by
    obtain ⟨-, v, hv, hsuffix, hperiod, -⟩ := h.extend hwindow hagain
    obtain ⟨h35, hcaptured⟩ := hv.flag hon
    refine ⟨v ++ [r], hsuffix, hperiod,
      fun hoff => absurd (hoff.symm.trans (hflag.trans hon)) Bool.false_ne_true, fun _ => ⟨?_, ?_⟩⟩
    · rw [List.length_append]
      omega
    · refine ⟨?_, ?_, ?_, ?_⟩
      · exact (congrArg LoopInfo.period hloop).trans (hcaptured.period.trans hagain.2.2.symm)
      · exact hagain.2.2 ▸ hcaptured.nonzero
      · exact (congrArg (fun l => l.instructions.length) hloop).trans
          (hcaptured.length.trans hagain.2.2.symm)
      · show t.currentLoop.instructions <:+: _
        rw [hloop]
        exact hcaptured.inside.trans (List.prefix_append v [r]).isInfix

theorem Sound.counting {s t : WarpLoopState} (h : Sound ms s) (hwindow : Window (ms ++ [r]) sig p)
    (hholds : Holds (ms ++ [r]) t) (hagain : Again s sig p) (hoff : s.loopFlag = false)
    (hflag : t.loopFlag = s.loopFlag) (hcnt : t.repeatCnt = s.repeatCnt)
    (hcount : (t.repeatCnt + 1).toNat ≤ loopRepeatThresh) :
    Sound (ms ++ [r]) { t with repeatCnt := t.repeatCnt + 1, lastSig := sig, lastPeriod := p } where
  holds := hholds.of_fields rfl rfl rfl
  early := fun hshort => absurd hwindow.full (Nat.not_le.mpr hshort)
  window := fun _ => hwindow
  small := fun _ => hcount
  positive := fun _ _ => by
    show 1 ≤ (t.repeatCnt + 1).toNat
    rw [hcnt, toNat_succ (h.small hoff)]
    omega
  repeats := fun _ => by
    obtain ⟨-, v, hv, hsuffix, hperiod, -⟩ := h.extend hwindow hagain
    refine ⟨v ++ [r], hsuffix, hperiod, fun _ => ?_,
      fun hon => absurd (hon.symm.trans (hflag.trans hoff)) Bool.true_eq_false.mp⟩
    have hlong := hv.count hoff
    show 31 + (t.repeatCnt + 1).toNat ≤ (v ++ [r]).length
    rw [hcnt, toNat_succ (h.small hoff), List.length_append, List.length_singleton]
    omega

/-- The oldest records of the window are copied when the flag is raised. -/
theorem Sound.raised {s t : WarpLoopState} (h : Sound ms s) (hwindow : Window (ms ++ [r]) sig p)
    (hholds : Holds (ms ++ [r]) t) (hagain : Again s sig p) (hoff : s.loopFlag = false)
    (hcnt : t.repeatCnt = s.repeatCnt) (hcount : loopRepeatThresh < (t.repeatCnt + 1).toNat)
    (now : ℤ) :
    Sound (ms ++ [r]) { t with
      repeatCnt := t.repeatCnt + 1
      loopFlag := true
      firstLoopTime := now
      currentLoop := t.capture p
      lastSig := sig
      lastPeriod := p } where
  holds := hholds.of_fields rfl rfl rfl
  early := fun hshort => absurd hwindow.full (Nat.not_le.mpr hshort)
  window := fun _ => hwindow
  small := nofun
  positive := nofun
  repeats := fun _ => by
    obtain ⟨-, v, hv, hsuffix, hperiod, hinside⟩ := h.extend hwindow hagain
    have hp := hwindow.nonzero hagain.1
    have hlt := hwindow.lt hp
    have hcopied := capture_instructions hholds (le_of_lt hlt)
    refine ⟨v ++ [r], hsuffix, hperiod, nofun, fun _ => ⟨?_, rfl, hp, ?_, ?_⟩⟩
    · have hlong := hv.count hoff
      have hthree : 3 < (t.repeatCnt + 1).toNat := hcount
      rw [hcnt, toNat_succ (h.small hoff)] at hthree
      rw [List.length_append, List.length_singleton]
      omega
    · show (t.capture p).instructions.length = p
      rw [hcopied, List.length_take, length_lastRecords, Nat.min_eq_left (le_of_lt hlt)]
    · show (t.capture p).instructions <:+: v ++ [r]
      rw [hcopied]
      exact (List.take_prefix _ _).isInfix.trans hinside.isInfix

/-- A full buffer is observed. -/
theorem Sound.observe (h : Sound ms s) (hwindow : Window (ms ++ [r]) sig p) (now : ℤ) :
    Sound (ms ++ [r]) ((s.allocate.push r).observe now sig p) := by
  obtain ⟨hsig, hperiod, hcnt, hflag, hloop⟩ := fields_pushed s r
  have hholds := h.holds.push r
  have hagain : Again (s.allocate.push r) sig p → Again s sig p := fun h =>
    ⟨h.1, h.2.1.trans hsig, h.2.2.trans hperiod⟩
  have hobserved := observe_observed (s.allocate.push r) now sig p
  generalize (s.allocate.push r).observe now sig p = t at hobserved ⊢
  cases hobserved with
  | reset hno => exact hwindow.reset hholds
  | looping hyes hon => exact h.looping hwindow hholds (hagain hyes) (hflag ▸ hon) hflag hloop
  | counting hyes hoff hcount =>
    exact h.counting hwindow hholds (hagain hyes) (hflag ▸ hoff) hflag hcnt hcount
  | raised hyes hoff hcount =>
    exact h.raised hwindow hholds (hagain hyes) (hflag ▸ hoff) hcnt hcount now

/-- A record fills the buffer, or is observed with the window it completes. -/
theorem Sound.step_cases (h : Sound ms s) (a : Arrival) :
    ((ms ++ [a.merged]).length < pcHistoryLen ∧ step s a = s.allocate.push a.merged) ∨
      ∃ sig p, Window (ms ++ [a.merged]) sig p ∧
        step s a = (s.allocate.push a.merged).observe a.now sig p := by
  have hholds := h.holds.push a.merged
  have hfilled := hholds.filled
  unfold step updateLoopState
  by_cases hshort : (s.allocate.push a.merged).filled < pcHistoryLen
  · exact .inl ⟨by omega, if_pos hshort⟩
  · have hfull : pcHistoryLen ≤ (ms ++ [a.merged]).length := by omega
    refine .inr ⟨_, _, ⟨hfull, rfl⟩, ?_⟩
    rw [← hholds.linear]
    exact if_neg hshort

theorem Sound.step (h : Sound ms s) (a : Arrival) : Sound (ms ++ [a.merged]) (step s a) := by
  rcases h.step_cases a with ⟨hshort, hstep⟩ | ⟨sig, p, hwindow, hstep⟩
  · rw [hstep]
    exact h.fill a.merged hshort
  · rw [hstep]
    exact h.observe hwindow a.now

theorem run_windowed (arrivals : List Arrival) : Sound (arrivals.map Arrival.merged) (run arrivals) := by
  induction arrivals using List.reverseRecOn with
  | nil => exact sound_start
  | append_singleton arrivals a ih =>
    rw [List.map_append, run_concat]
    exact ih.step a

/-! ### A repeated cycle -/

theorem map_pc_merged (arrivals : List Arrival) :
    (arrivals.map Arrival.merged).map TraceRecordMerged.pc = arrivals.map Arrival.pc := by
  rw [List.map_map]
  exact List.map_congr_left fun a _ => pc_merged a

/-- In a repetition of a primitive cycle every window has its signature and length. -/
theorem window_of_cycle {before after : List Arrival}
    (hprimitive : Cycle.Primitive ((after.map Arrival.pc).take p))
    (hperiod : (after.map Arrival.pc).HasPeriod p) (hp : 0 < p) (hshort : p ≤ 16)
    (hlong : pcHistoryLen ≤ after.length) :
    Window ((before ++ after).map Arrival.merged) (signature ((after.map Arrival.pc).take p)) p where
  full := by
    rw [List.length_map, List.length_append]
    omega
  eq := by
    have hfull : pcHistoryLen ≤ ((before ++ after).map Arrival.merged).length := by
      rw [List.length_map, List.length_append]
      omega
    rw [lastRecords_of_le hfull, List.map_drop, map_pc_merged, List.length_map, List.length_append,
      List.map_append, List.drop_append, List.length_map,
      List.drop_eq_nil_of_le (by rw [List.length_map]; omega), List.nil_append]
    have hall : (after.map Arrival.pc).drop (before.length + after.length - pcHistoryLen - before.length) =
        ((after.map Arrival.pc).drop (after.length - pcHistoryLen)).take pcHistoryLen := by
      rw [List.take_of_length_le (by rw [List.length_drop, List.length_map]; omega)]
      congr 1
      omega
    rw [hall]
    exact canonicalSignature_factor hprimitive hperiod hp hshort (by rw [List.length_map]; omega)

theorem Window.unique {sig sig' : UInt64} {p p' : ℕ} (h : Window ms sig p)
    (h' : Window ms sig' p') : sig = sig' ∧ p = p' :=
  Prod.mk.inj (h.eq.symm.trans h'.eq)

/-- A window of the signature before it raises the flag or counts. -/
theorem Sound.again (h : Sound ms s) {a : Arrival} (hsig : sig ≠ 0) (hbefore : Window ms sig p)
    (hwindow : Window (ms ++ [a.merged]) sig p) :
    (Loops.step s a).loopFlag = true ∨
      s.loopFlag = false ∧ (Loops.step s a).repeatCnt.toNat = s.repeatCnt.toNat + 1 := by
  obtain ⟨hsigt, hperiodt, hcnt, hflag, -⟩ := fields_pushed s a.merged
  have hlast := (h.window hbefore.full).unique hbefore
  rcases h.step_cases a with ⟨hshort, -⟩ | ⟨sig', p', hwindow', hstep⟩
  · exact absurd hwindow.full (Nat.not_le.mpr hshort)
  obtain ⟨rfl, rfl⟩ := hwindow'.unique hwindow
  have hagain : Again (s.allocate.push a.merged) sig' p' :=
    ⟨hsig, hlast.1.symm.trans hsigt.symm, hlast.2.symm.trans hperiodt.symm⟩
  rw [hstep]
  have hobserved := observe_observed (s.allocate.push a.merged) a.now sig' p'
  generalize (s.allocate.push a.merged).observe a.now sig' p' = t at hobserved ⊢
  cases hobserved with
  | reset hno => exact absurd hagain hno
  | looping _ hon => exact .inl hon
  | counting _ hoff _ =>
    have hsmall := h.small (hflag ▸ hoff)
    refine .inr ⟨hflag ▸ hoff, ?_⟩
    show (_ + 1 : UInt32).toNat = _
    rw [hcnt, toNat_succ hsmall]
  | raised _ _ _ => exact .inl rfl

/-- In a repetition the counter grows until the flag is raised. -/
theorem counted_of_windows {before : List Arrival} (hsig : sig ≠ 0) {after : List Arrival}
    (hlong : pcHistoryLen ≤ after.length)
    (hwindow : ∀ n, pcHistoryLen ≤ n → n ≤ after.length → Window ((before ++ after.take n).map Arrival.merged) sig p) :
    (run (before ++ after)).loopFlag = true ∨
      after.length ≤ (run (before ++ after)).repeatCnt.toNat + 31 := by
  have h32 : pcHistoryLen = 32 := rfl
  induction after using List.reverseRecOn with
  | nil => exact absurd hlong (by decide)
  | append_singleton after a ih =>
    rw [List.length_append, List.length_singleton] at hlong
    have hsound := run_windowed (before ++ after)
    have hnow := hwindow (after.length + 1) hlong (by simp)
    rw [List.take_of_length_le (by simp), ← List.append_assoc, List.map_append] at hnow
    rw [← List.append_assoc, run_concat, List.length_append, List.length_singleton]
    by_cases hfirst : after.length < pcHistoryLen
    · have hstep := hsound.step a
      cases hon : (Loops.step (run (before ++ after)) a).loopFlag with
      | true => exact .inl rfl
      | false =>
        have hone := hstep.positive hnow.full hon
        exact .inr (by omega)
    · have hlast := hwindow after.length (Nat.le_of_not_lt hfirst) (by simp)
      rw [List.take_left] at hlast
      rcases hsound.again hsig hlast hnow with hon | ⟨hoff, hcount⟩
      · exact .inl hon
      · have hearlier := ih (Nat.le_of_not_lt hfirst) fun n hn hle => by
          have hw := hwindow n hn (by rw [List.length_append]; omega)
          rwa [List.take_append_of_le_length hle] at hw
        rcases hearlier with hon | hcounted
        · exact absurd (hon.symm.trans hoff) Bool.true_eq_false.mp
        · exact .inr (by omega)

/-- The flag of a warp is right: it says that the last 35 PCs repeat, with the records of one
period copied out; and once a primitive cycle of at most 16 PCs has been repeated for 35
records it is raised, with the cycle's length and a signature that all rotations share. -/
theorem loop_detection (arrivals : List Arrival) :
    ((run arrivals).loopFlag = true →
      0 < (run arrivals).lastPeriod ∧ (run arrivals).lastPeriod ≤ 31 ∧ 35 ≤ arrivals.length ∧
      ((arrivals.map Arrival.pc).drop (arrivals.length - 35)).HasPeriod (run arrivals).lastPeriod ∧
      (run arrivals).currentLoop.period = (run arrivals).lastPeriod ∧
      ∃ v, v <:+ arrivals.map Arrival.merged ∧
        (v.map TraceRecordMerged.pc).HasPeriod (run arrivals).lastPeriod ∧
        (run arrivals).currentLoop.instructions <:+: v ∧
        (run arrivals).currentLoop.instructions.length = (run arrivals).lastPeriod) ∧
    ∀ (before after : List Arrival) (p : ℕ), arrivals = before ++ after →
      Cycle.Primitive ((after.map Arrival.pc).take p) → (after.map Arrival.pc).HasPeriod p →
      0 < p → p ≤ 16 → 35 ≤ after.length → signature ((after.map Arrival.pc).take p) ≠ 0 →
        (run arrivals).loopFlag = true ∧ (run arrivals).lastPeriod = p ∧
        ∀ c, (after.map Arrival.pc).take p ~r c → (run arrivals).lastSig = signature c := by
  have hsound := run_windowed arrivals
  have h32 : pcHistoryLen = 32 := rfl
  constructor
  · intro hflag
    have hfull : pcHistoryLen ≤ (arrivals.map Arrival.merged).length := by
      by_contra hshort
      exact absurd (hflag.symm.trans (hsound.early (Nat.not_le.mp hshort)).2) Bool.true_eq_false.mp
    obtain ⟨v, hv⟩ := hsound.repeats hfull
    obtain ⟨h35, hcaptured⟩ := hv.flag hflag
    have hlt := (hsound.window hfull).lt hcaptured.nonzero
    have hle := hv.suffix.length_le
    rw [List.length_map] at hle
    have hlast : (arrivals.map Arrival.pc).drop (arrivals.length - 35) <:+ v.map TraceRecordMerged.pc := by
      have hall := hv.suffix.map TraceRecordMerged.pc
      rw [map_pc_merged] at hall
      refine List.suffix_of_suffix_length_le (List.drop_suffix _ _) hall ?_
      rw [List.length_drop, List.length_map, List.length_map]
      omega
    exact ⟨Nat.pos_of_ne_zero hcaptured.nonzero, by omega, by omega, hv.period.infix hlast.isInfix,
      hcaptured.period, v, hv.suffix, hv.period, hcaptured.inside, hcaptured.length⟩
  · rintro before after p rfl hprimitive hperiod hp hshort hlong hsig
    have hprefix : ∀ n, p ≤ n →
        ((after.take n).map Arrival.pc).take p = (after.map Arrival.pc).take p := by
      intro n hn
      rw [List.map_take, List.take_take, Nat.min_eq_left hn]
    have hwindow : ∀ n, pcHistoryLen ≤ n → n ≤ after.length →
        Window ((before ++ after.take n).map Arrival.merged)
          (signature ((after.map Arrival.pc).take p)) p := by
      intro n hn hle
      have hsame := hprefix n (by omega)
      rw [← hsame]
      refine window_of_cycle (hsame.symm ▸ hprimitive) ?_ hp hshort (by rw [List.length_take]; omega)
      rw [List.map_take]
      exact hperiod.infix (List.take_prefix _ _).isInfix
    have hlast := hwindow after.length (by omega) (le_refl _)
    rw [List.take_length] at hlast
    obtain ⟨hsigeq, hpeq⟩ := (hsound.window hlast.full).unique hlast
    refine ⟨?_, hpeq, fun c hc => hsigeq.trans (signature_rotate hc)⟩
    rcases counted_of_windows hsig (by omega) hwindow with hon | hcounted
    · exact hon
    · by_contra hoff
      have hsmall : (run (before ++ after)).repeatCnt.toNat ≤ 3 :=
        hsound.small (Bool.not_eq_true _ ▸ hoff)
      omega

/-- A warp that alternates between two instructions. -/
def alternating : List Arrival :=
  (List.range 35).map fun i =>
    { ri := { TraceRecordMerged.blank.reg with pc := if i % 2 = 0 then 16 else 32 }
      pending := []
      now := i }

theorem loop_detection_alternating :
    (run alternating).loopFlag = true ∧ (run alternating).lastPeriod = 2 ∧
      (run alternating).lastSig = signature [32, 16] := by
  have hcycle : (alternating.map Arrival.pc).take 2 = [16, 32] := by decide
  have hprimitive : Cycle.Primitive ((alternating.map Arrival.pc).take 2) := by
    rw [hcycle]
    exact Cycle.primitive_of_nodup (List.cons_ne_nil _ _) (by decide)
  have hperiod : (alternating.map Arrival.pc).HasPeriod 2 :=
    Cycle.hasPeriod_iff_drop.mpr (by decide +kernel)
  have hsig : signature ((alternating.map Arrival.pc).take 2) ≠ 0 := by
    rw [hcycle]
    decide +kernel
  obtain ⟨hflag, hlast, hall⟩ := (loop_detection alternating).2 [] alternating 2 rfl hprimitive hperiod
    (by decide) (by decide) (by decide) hsig
  exact ⟨hflag, hlast, hall _ (hcycle ▸ ⟨1, rfl⟩)⟩

/-! ### The history of the hang check -/

/-- The hang check's state of a warp keeps the PCs of the buffer, and a counter that does
not wrap. -/
structure Refines (ms : List TraceRecordMerged) (s : WarpLoopState) (d : Deadlock.WarpLoopState) :
    Prop where
  history : d.history = (ms.map TraceRecordMerged.pc).drop (ms.length - pcHistoryLen)
  sig : d.lastSig = s.lastSig
  period : d.lastPeriod = s.lastPeriod
  flag : d.loopFlag = s.loopFlag
  count : s.loopFlag = false → d.repeatCnt = s.repeatCnt.toNat

variable {d : Deadlock.WarpLoopState}

theorem length_history (h : Refines ms s d) : d.history.length = min ms.length pcHistoryLen := by
  rw [h.history, List.length_drop, List.length_map]
  omega

/-- The history of the hang check after another record. -/
theorem Refines.history_push (h : Refines ms s d) (r : TraceRecordMerged) :
    (d.history ++ [r.pc]).drop (d.history.length + 1 - pcHistoryLen) =
      ((ms ++ [r]).map TraceRecordMerged.pc).drop ((ms ++ [r]).length - pcHistoryLen) := by
  have hlength := length_history h
  have hle : ms.length - pcHistoryLen ≤ (ms.map TraceRecordMerged.pc).length := by
    rw [List.length_map]
    omega
  rw [h.history, ← List.drop_append_of_le_length hle, List.drop_drop, List.map_append,
    List.length_append, List.length_singleton, ← h.history, hlength]
  congr 1
  omega

/-- The hang check's state after a record that completes a window. -/
theorem updateLoopState_full {pc sig : UInt64} {history : List UInt64}
    (hhistory : (d.history ++ [pc]).drop (d.history.length + 1 - pcHistoryLen) = history)
    (hfull : ¬history.length < pcHistoryLen) (hwindow : canonicalSignature history = (sig, p)) :
    Deadlock.updateLoopState pc d =
      let again := sig ≠ 0 ∧ sig = d.lastSig ∧ p = d.lastPeriod
      let repeatCnt := if again then d.repeatCnt + 1 else 1
      { history
        lastSig := sig
        lastPeriod := p
        repeatCnt
        loopFlag := (decide again && d.loopFlag) || decide (loopRepeatThresh < repeatCnt) } := by
  unfold Deadlock.updateLoopState
  simp only [hhistory, if_neg hfull, hwindow]

theorem Refines.step (h : Refines ms s d) (hsound : Sound ms s) (a : Arrival) :
    Refines (ms ++ [a.merged]) (Loops.step s a) (Deadlock.updateLoopState a.pc d) := by
  obtain ⟨hsigt, hperiodt, hcnt, hflag, -⟩ := fields_pushed s a.merged
  have hhistory := h.history_push a.merged
  rw [pc_merged] at hhistory
  have hlength : (((ms ++ [a.merged]).map TraceRecordMerged.pc).drop
      ((ms ++ [a.merged]).length - pcHistoryLen)).length = min (ms ++ [a.merged]).length pcHistoryLen := by
    rw [List.length_drop, List.length_map]
    omega
  rcases hsound.step_cases a with ⟨hshort, hstep⟩ | ⟨sig, p, hwindow, hstep⟩
  · have hfilling : Deadlock.updateLoopState a.pc d =
        { d with history := (d.history ++ [a.pc]).drop (d.history.length + 1 - pcHistoryLen) } := by
      unfold Deadlock.updateLoopState
      rw [hhistory, if_pos (by omega)]
    rw [hstep, hfilling]
    exact ⟨hhistory, h.sig.trans hsigt.symm, h.period.trans hperiodt.symm, h.flag.trans hflag.symm,
      fun hoff => (h.count (hflag ▸ hoff)).trans (congrArg UInt32.toNat hcnt.symm)⟩
  have hsignature : canonicalSignature (((ms ++ [a.merged]).map TraceRecordMerged.pc).drop
      ((ms ++ [a.merged]).length - pcHistoryLen)) = (sig, p) := by
    rw [← hwindow.eq, lastRecords_of_le hwindow.full, List.map_drop]
  have hfull := hwindow.full
  rw [hstep, updateLoopState_full hhistory (by omega) hsignature]
  have hagain : Again (s.allocate.push a.merged) sig p ↔
      sig ≠ 0 ∧ sig = d.lastSig ∧ p = d.lastPeriod := by
    rw [Again, hsigt, hperiodt, h.sig, h.period]
  have hobserved := observe_observed (s.allocate.push a.merged) a.now sig p
  generalize (s.allocate.push a.merged).observe a.now sig p = t at hobserved ⊢
  cases hobserved with
  | reset hno =>
    rw [hagain] at hno
    simp only [if_neg hno]
    exact ⟨rfl, rfl, rfl, by simp [hno, loopRepeatThresh], fun _ => rfl⟩
  | looping hyes hon =>
    rw [hagain] at hyes
    have hond : d.loopFlag = true := h.flag.trans (hflag.symm.trans hon)
    simp only [if_pos hyes]
    refine ⟨rfl, rfl, rfl, ?_,
      fun hoff => absurd (hon.symm.trans hoff) Bool.true_eq_false.mp⟩
    simp only [decide_eq_true hyes, hond, Bool.and_self, Bool.true_or, hon]
  | counting hyes hoff hcount =>
    rw [hagain] at hyes
    have hoffs : s.loopFlag = false := hflag ▸ hoff
    have hoffd : d.loopFlag = false := h.flag.trans hoffs
    have hcountd : d.repeatCnt + 1 = ((s.allocate.push a.merged).repeatCnt + 1).toNat := by
      rw [hcnt, toNat_succ (hsound.small hoffs), h.count hoffs]
    simp only [if_pos hyes]
    refine ⟨rfl, rfl, rfl, ?_, fun _ => hcountd⟩
    simp only [hoffd, hcountd, Bool.and_false, Bool.false_or, hoff]
    exact decide_eq_false (Nat.not_lt.mpr hcount)
  | raised hyes hoff hcount =>
    rw [hagain] at hyes
    have hoffs : s.loopFlag = false := hflag ▸ hoff
    have hcountd : d.repeatCnt + 1 = ((s.allocate.push a.merged).repeatCnt + 1).toNat := by
      rw [hcnt, toNat_succ (hsound.small hoffs), h.count hoffs]
    simp only [if_pos hyes]
    refine ⟨rfl, rfl, rfl, ?_, nofun⟩
    simp only [hcountd, Bool.or_eq_true, decide_eq_true_eq]
    exact .inr hcount

/-- The hang check's state of a warp is that of the ring buffer, record by record. -/
theorem run_refines (arrivals : List Arrival) :
    Refines (arrivals.map Arrival.merged) (run arrivals)
      ((arrivals.map Arrival.pc).foldl (fun d pc => Deadlock.updateLoopState pc d) {}) := by
  induction arrivals using List.reverseRecOn with
  | nil => exact ⟨rfl, rfl, rfl, rfl, fun _ => rfl⟩
  | append_singleton arrivals a ih =>
    rw [List.map_append, List.map_append, List.map_singleton, List.map_singleton, List.foldl_append,
      run_concat]
    exact ih.step (run_windowed arrivals) a

end CuTracer.Capture.Loops
