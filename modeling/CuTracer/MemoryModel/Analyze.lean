import CuTracer.MemoryModel.Candidates
import CuTracer.MemoryModel.Handshake

/-! `analyze`: the table of candidate edges. Each pair of a CTA adds one to the
occurrences of its row and one to exactly one outcome; pairs of a search that
was cut short, operands that were not resolved and accesses that no pair covers
go to the list of the unresolved. -/

namespace CuTracer.MemoryModel

/-- `COLUMNS`. -/
inductive Column where
  | occurrences | fenceSeen | syncLinked | fenceAndLink | noSyncLink | linkedViaIntermediate
  | waitLinked | waitLanesUnresolved | syncLanesUnresolved | noWaitLink | barrierUnknown
  | sameWarp | sameWarpFenceSeen | sameWarpLanesUnresolved | unresolvedWaitInSecondWarp
  | footprintUnresolved | completionUnchecked | manual
  deriving DecidableEq

abbrev RowKey := EdgeKind × String × String

abbrev Row := Column → ℕ

/-! ### The evidence for one pair -/

def Candidate.key (c : Candidate) : RowKey := (c.kind, c.x.pc, c.y.pc)

def flagColumns (c : Candidate) : List Column :=
  (if .footprintUnresolved ∈ c.x.flags ∨ .footprintUnresolved ∈ c.y.flags then
    [.footprintUnresolved] else []) ++
  if c.x.kind = some .cpasyncW ∨ c.kind = .asyncReadGenericWrite then [.completionUnchecked] else []

/-- Both accesses in one warp: other lanes, or a fence between them. -/
def sameWarpColumns (evs : List Event) (c : Candidate) : List Column :=
  .sameWarp ::
    if ¬ covers c.y.mask c.x.mask then [.sameWarpLanesUnresolved]
    else if evs.any fun e =>
        e.kind = some .fenceS ∧ c.x.pos < e.pos ∧ e.pos < c.y.pos ∧ covers e.mask c.x.mask then
      [.sameWarpFenceSeen]
    else []

def waitColumn : WaitLink → Column
  | .undecided => .barrierUnknown
  | .noWait => .noWaitLink
  | .linked => .waitLinked
  | .lanesUnresolved => .waitLanesUnresolved

def handshakeColumns (evs : List Event) (c : Candidate) (h : Handshake) : List Column :=
  let linked : Bool := h.link = some .linked ∨ h.link = some .linkedDepth2
  (if c.kind ≠ .asyncReadGenericWrite then
    (if h.fenceSeen then [.fenceSeen] else []) ++
      if h.fenceJoined && linked then [.fenceAndLink] else []
  else []) ++
  (if linked then .syncLinked else .noSyncLink) ::
    (if h.link = some .linkedDepth2 then [.linkedViaIntermediate] else []) ++
    (if h.link = some .lanesUnresolved then [.syncLanesUnresolved] else []) ++
    if !linked && evs.any fun e =>
        e.kind = some .mbarWait ∧ e.success = none ∧ e.pos < c.y.pos then
      [.unresolvedWaitInSecondWarp]
    else []

variable (pw : PerWarp)

/-- The outcome of a pair and the chain that shows it. -/
def outcome (b : Barriers) (cta : Cta) (c : Candidate) : List Column × List Step :=
  if c.x.warp = c.y.warp then (sameWarpColumns (pw.events cta c.x.warp) c, [])
  else
    match c.kind with
    | .asyncAsync => ([.manual], [])
    | .asyncWriteGenericRead =>
      let link := waitLink pw b cta c.x.warp c.x.pos c.x.srcBar c.y.warp c.y.pos
      ([waitColumn link.1], link.2)
    | _ =>
      let h := handshake pw b ⟨cta, c.x.warp, c.x.pos, c.y.warp, c.y.pos⟩
      (handshakeColumns (pw.events cta c.y.warp) c h, h.chain)

def pairColumns (b : Barriers) (cta : Cta) (c : Candidate) : List Column :=
  .occurrences :: flagColumns c ++ (outcome pw b cta c).1

/-- The first occurrence of a row, or the first one with a chain. -/
structure Witness where
  cta : Cta
  warp₁ : ℕ
  t₁ : Option ℤ
  mask₁ : ℕ
  warp₂ : ℕ
  t₂ : Option ℤ
  mask₂ : ℕ
  chain : List Step

def addColumns (cols : List Column) (row : Option Row) : Row :=
  fun col => (row.elim 0 fun r => r col) + cols.count col

def updateWitness (cta : Cta) (c : Candidate) (chain : List Step) (old : Option Witness) : Witness :=
  let this := ⟨cta, c.x.warp, c.x.t, c.x.mask, c.y.warp, c.y.t, c.y.mask, chain⟩
  match old with
  | none => this
  | some w => if chain ≠ [] ∧ w.chain = [] then this else w

/-! ### The unresolved -/

def Kind.name : Kind → String
  | .genericR => "generic_r"
  | .genericW => "generic_w"
  | .genericRw => "generic_rw"
  | .cpasyncW => "cpasync_w"
  | .asyncW => "async_w"
  | .asyncR => "async_r"
  | .asyncUnresolved => "async_unresolved"
  | .asyncDesc => "async_desc"
  | .fenceS => "fence_s"
  | .mbarTx => "mbar_tx"
  | .mbarRemote => "mbar_remote"
  | .mbarArrive => "mbar_arrive"
  | .mbarWait => "mbar_wait"
  | .mbarInit => "mbar_init"
  | .barSync => "bar_sync"
  | .barArv => "bar_arv"
  | .warpSync => "warp_sync"

def flagNames (flags : List Flag) : List String :=
  [(Flag.footprintUnresolved, "footprint_unresolved"), (.operandUnresolved, "operand_unresolved"),
    (.remoteShared, "remote_shared")].filterMap fun f => if f.1 ∈ flags then some f.2 else none

/-- An instruction, or an access kind, with the reason. -/
abbrev Note := String × String × String

def eventNotes (ev : Event) : List Note :=
  (if ev.kind = some .asyncDesc then [(ev.pc, ev.sass, "descriptor")]
  else if ev.kind = some .asyncUnresolved then [(ev.pc, ev.sass, "unsupported")]
  else if ev.kind.any Kind.isAccess ∧ flagNames ev.flags ≠ [] then
    [(ev.pc, ev.sass, ",".intercalate (flagNames ev.flags))]
  else []) ++
  if ev.kind = some .mbarWait ∧ ev.success = none then
    [(ev.pc, ev.sass, "wait_success_unresolved")]
  else []

/-- `discovery_capped_at_64`, by the access whose later ones were cut off. -/
def cappedNote (ev : Event) : Note :=
  (ev.pc, (ev.kind.map Kind.name).getD "", "discovery_capped_at_64")

/-! ### All CTAs -/

/-- Whether an event is an access to known bytes. -/
def Event.isCandidate (ev : Event) : Bool := ev.kind.any Kind.isAccess && decide (ev.ranges ≠ [])

def byCta : Dict Cta (List Event) :=
  Dict.collect ((pw.all.filter Event.isCandidate).map fun ev => (ev.cta, ev))

/-- The pairs that reach the table, in order. -/
def counted : List (Cta × Candidate) :=
  (byCta pw).entries.flatMap fun e => (ctaPairs e.2).1.map fun c => (e.1, c)

structure Analysis where
  rows : Dict RowKey Row
  witness : Dict RowKey Witness
  unresolved : Dict Note ℕ
  barriers : Barriers

/-- `analyze`, from the events on. -/
def analyze : Analysis :=
  let b := barriers pw
  { rows := (counted pw).foldl
      (fun rows p => rows.upsert p.2.key (addColumns (pairColumns pw b p.1 p.2))) Dict.empty
    witness := (counted pw).foldl
      (fun ws p => ws.upsert p.2.key (updateWitness p.1 p.2 (outcome pw b p.1 p.2).2)) Dict.empty
    unresolved := Dict.tally (pw.all.flatMap eventNotes ++
      ((byCta pw).entries.flatMap fun e => (ctaPairs e.2).2).map cappedNote)
    barriers := b }

/-- `rows[key][col]`. -/
def Analysis.count (a : Analysis) (key : RowKey) (col : Column) : ℕ :=
  ((a.rows.get? key).map fun row => row col).getD 0

/-! ### What a row counts -/

theorem foldl_addColumns {α : Type*} (cols : α → List Column) (xs : List α) (row : Option Row)
    (col : Column) :
    ((xs.foldl (fun row x => some (addColumns (cols x) row)) row).map fun r => r col).getD 0 =
      (row.elim 0 fun r => r col) + (xs.flatMap cols).count col := by
  induction xs generalizing row with
  | nil => cases row <;> rfl
  | cons x xs ih =>
    rw [List.foldl_cons, ih, List.flatMap_cons, List.count_append, Option.elim_some, addColumns,
      Nat.add_assoc]

/-- A row adds up the columns of its pairs. -/
theorem count_analyze (pw : PerWarp) (key : RowKey) (col : Column) :
    (analyze pw).count key col =
      (((counted pw).filter fun p => p.2.key = key).flatMap fun p =>
        pairColumns pw (barriers pw) p.1 p.2).count col := by
  unfold Analysis.count analyze
  dsimp only
  rw [Dict.get?_foldl_upsert (fun p : Cta × Candidate => p.2.key)
    fun p => addColumns (pairColumns pw (barriers pw) p.1 p.2)]
  rw [foldl_addColumns fun p : Cta × Candidate => pairColumns pw (barriers pw) p.1 p.2]
  simp

/-- The outcomes of a pair: what `occurrences` is the sum of. -/
def Column.isOutcome : Column → Bool
  | .sameWarp | .manual | .barrierUnknown | .noWaitLink | .waitLinked | .waitLanesUnresolved
  | .syncLinked | .noSyncLink => true
  | _ => false

theorem countP_isOutcome (cols : List Column) :
    cols.countP Column.isOutcome = cols.count .sameWarp + cols.count .manual +
      (cols.count .barrierUnknown + cols.count .noWaitLink + cols.count .waitLinked +
        cols.count .waitLanesUnresolved) + (cols.count .syncLinked + cols.count .noSyncLink) := by
  induction cols with
  | nil => rfl
  | cons col cols ih =>
    rw [List.countP_cons, ih]
    cases col <;> simp [Column.isOutcome] <;> omega

theorem countP_sameWarpColumns (evs : List Event) (c : Candidate) :
    (sameWarpColumns evs c).countP Column.isOutcome = 1 := by
  unfold sameWarpColumns
  split_ifs <;> rfl

theorem countP_handshakeColumns (evs : List Event) (c : Candidate) (h : Handshake) :
    (handshakeColumns evs c h).countP Column.isOutcome = 1 := by
  unfold handshakeColumns
  simp only [List.countP_append, List.countP_cons]
  split_ifs <;> simp_all [Column.isOutcome]

theorem countP_waitColumn (link : WaitLink) : [waitColumn link].countP Column.isOutcome = 1 := by
  cases link <;> rfl

theorem countP_outcome (pw : PerWarp) (b : Barriers) (cta : Cta) (c : Candidate) :
    (outcome pw b cta c).1.countP Column.isOutcome = 1 := by
  unfold outcome
  split_ifs
  · exact countP_sameWarpColumns _ c
  · split
    · rfl
    · exact countP_waitColumn _
    · exact countP_handshakeColumns _ c _

theorem countP_flagColumns (c : Candidate) (p : Column → Bool) (h₁ : p .footprintUnresolved = false)
    (h₂ : p .completionUnchecked = false) : (flagColumns c).countP p = 0 := by
  unfold flagColumns
  split_ifs <;> simp [h₁, h₂]

theorem occurrences_not_mem_waitColumn (link : WaitLink) : .occurrences ∉ [waitColumn link] := by
  cases link <;> simp [waitColumn]

theorem count_outcome_occurrences (pw : PerWarp) (b : Barriers) (cta : Cta) (c : Candidate) :
    (outcome pw b cta c).1.count .occurrences = 0 := by
  refine List.count_eq_zero.mpr ?_
  unfold outcome
  split_ifs
  · simp only [sameWarpColumns]
    split_ifs <;> simp
  · split
    · simp
    · exact occurrences_not_mem_waitColumn _
    · simp only [handshakeColumns]
      split_ifs <;> simp

theorem count_pairColumns (pw : PerWarp) (b : Barriers) (cta : Cta) (c : Candidate) :
    (pairColumns pw b cta c).count .occurrences = 1 ∧
      (pairColumns pw b cta c).countP Column.isOutcome = 1 := by
  have hflags : (flagColumns c).count .occurrences = 0 := countP_flagColumns c _ rfl rfl
  have houtcome : (flagColumns c).countP Column.isOutcome = 0 := countP_flagColumns c _ rfl rfl
  have hone := countP_outcome pw b cta c
  constructor
  · rw [pairColumns, List.cons_append, List.count_cons_self, List.count_append, hflags,
      count_outcome_occurrences]
  · rw [pairColumns, List.cons_append, List.countP_cons_of_neg (by simp [Column.isOutcome]),
      List.countP_append, houtcome, hone]

theorem countP_flatMap_eq_length {α β : Type*} (f : α → List β) (p : β → Bool) (xs : List α)
    (h : ∀ x ∈ xs, (f x).countP p = 1) : (xs.flatMap f).countP p = xs.length := by
  induction xs with
  | nil => rfl
  | cons x xs ih =>
    rw [List.flatMap_cons, List.countP_append, h x List.mem_cons_self,
      ih fun y hy => h y (List.mem_cons_of_mem x hy), List.length_cons, Nat.add_comm]

theorem count_occurrences (pw : PerWarp) (key : RowKey) :
    (analyze pw).count key .occurrences = (counted pw).countP fun p => p.2.key = key := by
  rw [count_analyze, List.countP_eq_length_filter]
  exact countP_flatMap_eq_length (fun p : Cta × Candidate => pairColumns pw (barriers pw) p.1 p.2)
    _ _ fun p _ => (count_pairColumns pw _ p.1 p.2).1

/-- The outcomes of a row add up to its occurrences. -/
theorem occurrences_eq_outcomes (pw : PerWarp) (key : RowKey) :
    let n := (analyze pw).count key
    n .occurrences = n .sameWarp + n .manual +
      (n .barrierUnknown + n .noWaitLink + n .waitLinked + n .waitLanesUnresolved) +
      (n .syncLinked + n .noSyncLink) := by
  have hsum := countP_flatMap_eq_length
    (fun p : Cta × Candidate => pairColumns pw (barriers pw) p.1 p.2) Column.isOutcome
    ((counted pw).filter fun p => p.2.key = key) fun p _ => (count_pairColumns pw _ p.1 p.2).2
  rw [countP_isOutcome] at hsum
  have hlength := count_occurrences pw key
  rw [List.countP_eq_length_filter] at hlength
  dsimp only
  rw [hlength, ← hsum]
  simp only [count_analyze]

/-! ### Which pairs are counted -/

def accesses (cta : Cta) : List Event :=
  (pw.all.filter Event.isCandidate).filter fun ev => ev.cta = cta

/-- A pair of a CTA in receive order, of some kind and with a common byte. -/
def IsCandidate (cta : Cta) (c : Candidate) : Prop :=
  [c.x, c.y].Sublist (receiveOrder (accesses pw cta)) ∧ pairKind c.x c.y = some c.kind ∧
    ShareByte c.x c.y

theorem collected_accesses (pw : PerWarp) (cta : Cta) :
    (((pw.all.filter Event.isCandidate).map fun ev => (ev.cta, ev)).filter fun p =>
      p.1 = cta).map Prod.snd = accesses pw cta := by
  rw [List.filter_map, List.map_map]
  exact List.map_id _

theorem mem_byCta {pw : PerWarp} {cta : Cta} {evs : List Event}
    (h : (cta, evs) ∈ (byCta pw).entries) : evs = accesses pw cta := by
  rw [(Dict.mem_collect.mp h).2, collected_accesses]

theorem exists_byCta {pw : PerWarp} {cta : Cta} {ev : Event} (h : ev ∈ accesses pw cta) :
    (cta, accesses pw cta) ∈ (byCta pw).entries := by
  obtain ⟨hmem, hc⟩ := List.mem_filter.mp h
  obtain rfl := of_decide_eq_true hc
  refine Dict.mem_collect.mpr ⟨?_, (collected_accesses pw _).symm⟩
  exact List.mem_map.mpr ⟨(ev.cta, ev), List.mem_map.mpr ⟨ev, hmem, rfl⟩, rfl⟩

theorem mem_accesses {pw : PerWarp} {cta : Cta} {ev : Event} (h : ev ∈ accesses pw cta) :
    ev ∈ pw.all ∧ ev.cta = cta := by
  obtain ⟨hmem, hc⟩ := List.mem_filter.mp h
  exact ⟨List.mem_of_mem_filter hmem, of_decide_eq_true hc⟩

theorem mem_counted {pw : PerWarp} {cta : Cta} {c : Candidate} (h : (cta, c) ∈ counted pw) :
    IsCandidate pw cta c := by
  obtain ⟨⟨cta', evs⟩, hentry, hmem⟩ := List.mem_flatMap.mp h
  obtain ⟨c', hc', he⟩ := List.mem_map.mp hmem
  cases he
  obtain rfl := mem_byCta hentry
  exact mem_ctaPairs (fun e he => PerWarp.manyAsync_of_mem_all (mem_accesses he).1) hc'

theorem counted_nodup : (counted pw).Nodup := by
  refine List.nodup_flatMap.mpr ⟨?_, ?_⟩
  · intro e _
    exact (ctaPairs_nodup e.2).map fun c c' h => (Prod.mk.inj h).2
  · refine List.Pairwise.imp ?_ (List.pairwise_map.mp (byCta pw).nodup)
    intro e e' hne
    rw [Function.onFun_apply, List.disjoint_left]
    intro p hp hp'
    obtain ⟨c, -, rfl⟩ := List.mem_map.mp hp
    obtain ⟨c', -, he⟩ := List.mem_map.mp hp'
    exact hne (Prod.mk.inj he).1.symm

theorem counted_complete {pw : PerWarp} {cta : Cta} {c : Candidate} (h : IsCandidate pw cta c) :
    (cta, c) ∈ counted pw ∨ cappedNote c.x ∈ (analyze pw).unresolved.keys := by
  obtain ⟨horder, hkind, hbyte⟩ := h
  have hentry := exists_byCta (mem_receiveOrder.mp (horder.subset List.mem_cons_self))
  have hplace : ∀ e ∈ accesses pw cta, ∀ e' ∈ accesses pw cta, e.warp = e'.warp →
      e.pos = e'.pos → e = e' := by
    intro e he e' he' hw hp
    obtain ⟨hall, hc⟩ := mem_accesses he
    obtain ⟨hall', hc'⟩ := mem_accesses he'
    exact PerWarp.eq_of_place hall hall' (hc.trans hc'.symm) hw hp
  have hsingle : ∀ e ∈ accesses pw cta, e.manyAsync = false :=
    fun e he => PerWarp.manyAsync_of_mem_all (mem_accesses he).1
  rcases ctaPairs_complete hplace hsingle horder hkind hbyte with h | h
  · exact Or.inl (List.mem_flatMap.mpr ⟨_, hentry, List.mem_map.mpr ⟨c, h, rfl⟩⟩)
  · refine Or.inr (Dict.mem_keys_tally.mpr (List.mem_append_right _ ?_))
    exact List.mem_map.mpr ⟨c.x, List.mem_flatMap.mpr ⟨_, hentry, h⟩, rfl⟩

/-- Every candidate pair is counted once in its row, unless the search of its first
access is reported as cut short; no other pair is counted, and the outcomes of a row add up
to its occurrences. -/
theorem candidates_counted_once (pw : PerWarp) :
    (∀ cta c, IsCandidate pw cta c →
      (counted pw).count (cta, c) = 1 ∨ cappedNote c.x ∈ (analyze pw).unresolved.keys) ∧
    (∀ cta c, (counted pw).count (cta, c) ≤ 1) ∧
    (∀ cta c, (cta, c) ∈ counted pw → IsCandidate pw cta c) ∧
    (∀ key, (analyze pw).count key .occurrences = (counted pw).countP fun p => p.2.key = key) ∧
    ∀ key, let n := (analyze pw).count key
      n .occurrences = n .sameWarp + n .manual +
        (n .barrierUnknown + n .noWaitLink + n .waitLinked + n .waitLanesUnresolved) +
        (n .syncLinked + n .noSyncLink) := by
  refine ⟨?_, ?_, ?_, count_occurrences pw, occurrences_eq_outcomes pw⟩
  · intro cta c hc
    rcases counted_complete hc with h | h
    · exact Or.inl (List.count_eq_one_of_mem (counted_nodup pw) h)
    · exact Or.inr h
  · intro cta c
    exact List.nodup_iff_count_le_one.mp (counted_nodup pw) (cta, c)
  · intro cta c hc
    exact mem_counted hc

end CuTracer.MemoryModel
