import CuTracer.Library.Dict
import CuTracer.Library.SortedSet

/-! The events of a shared-memory trace, as `build_events` hands them on: each
warp's instructions in program order, with the shared bytes they touch, the
barrier they use, and whether a wait was seen to succeed. A shared address
carries the CTA's rank in its cluster above bit 24; renaming turns a CTA's own
addresses into offsets and moves all others above the cluster window. -/

namespace CuTracer.MemoryModel

abbrev Cta := ℕ × ℕ × ℕ

inductive Kind where
  | genericR | genericW | genericRw | cpasyncW | asyncW | asyncR | asyncUnresolved | asyncDesc
  | fenceS | mbarTx | mbarRemote | mbarArrive | mbarWait | mbarInit | barSync | barArv | warpSync
  deriving DecidableEq

/-- `kind.startswith("async")`. -/
def Kind.isAsync : Kind → Bool
  | .asyncW | .asyncR | .asyncUnresolved | .asyncDesc => true
  | _ => false

inductive Flag where
  | operandUnresolved | footprintUnresolved | remoteShared | barrierNonuniform
  | matrixFootprintApprox
  deriving DecidableEq

inductive Token where
  | missing | nonuniform
  | value (parity : ℕ)
  deriving DecidableEq

/-- The bytes from `lo` up to `hi`, at least one. -/
structure Range where
  lo : ℤ
  hi : ℤ
  lt : lo < hi
  deriving DecidableEq

/-- One dynamic instruction of a warp. -/
structure Event where
  cta : Cta
  warp : ℕ
  pos : ℕ
  t : Option ℤ
  pc : String
  sass : String
  kind : Option Kind
  mask : ℕ
  ranges : List Range
  flags : List Flag
  bar : Option ℤ
  barSet : List ℤ
  rawBars : Option (List ℤ)
  srcBar : Option ℤ
  token : Token
  success : Option Bool
  members : ℕ
  barId : Option ℤ
  barCount : Option ℤ
  deriving DecidableEq

/-! ### Shared addresses -/

/-- `SHARED_LIMIT`: the size of a CTA's shared window. -/
def sharedLimit : ℤ := 0x1000000

/-- `CLUSTER_WINDOW`: at most 16 CTAs in a cluster. -/
def clusterWindow : ℤ := 16 * sharedLimit

/-- Whether an address carries a rank of the cluster. -/
def InWindow (a : ℤ) : Prop := 0 ≤ a ∧ a < clusterWindow

instance (a : ℤ) : Decidable (InWindow a) := inferInstanceAs (Decidable (_ ∧ _))

/-- `ev.bar` and `ev.bar_set` of an mbarrier instruction, from the addresses of its
active lanes and the uniform operand. -/
def mbarOperand (lanes : List ℤ) (uniform : Option ℤ) : Option ℤ × List ℤ :=
  let addrs := sortedSet (lanes.filter fun a => InWindow a)
  if 1 < addrs.length then (none, addrs) else (addrs.head?.or uniform, [])

/-- An address that the operand resolves to: recorded by a lane, or by the uniform
operand when no lane recorded one. -/
def ResolvesTo (lanes : List ℤ) (uniform : Option ℤ) (a : ℤ) : Prop :=
  InWindow a ∧ (a ∈ lanes ∨ (∀ b ∈ lanes, ¬ InWindow b) ∧ uniform = some a)

theorem mem_mbarOperand {lanes : List ℤ} {uniform : Option ℤ} {a : ℤ}
    (h : ResolvesTo lanes uniform a) :
    a ∈ (mbarOperand lanes uniform).1.toList ++ (mbarOperand lanes uniform).2 := by
  obtain ⟨hwindow, hlane | ⟨hnone, hu⟩⟩ := h
  · have hmem : a ∈ sortedSet (lanes.filter fun a => InWindow a) :=
      mem_sortedSet.mpr (List.mem_filter.mpr ⟨hlane, by simpa using hwindow⟩)
    unfold mbarOperand
    simp only
    split_ifs with hlen
    · simpa using hmem
    · match hl : sortedSet (lanes.filter fun a => InWindow a), hmem, hlen with
      | [b], hmem, _ =>
        obtain rfl := List.mem_singleton.mp hmem
        simp
      | _ :: _ :: _, _, hlen => simp at hlen
  · have hnil : lanes.filter (fun a => InWindow a) = [] :=
      List.filter_eq_nil_iff.mpr fun b hb => by simpa using hnone b hb
    simp [mbarOperand, hnil, hu, sortedSet]

/-! ### Warps -/

def Event.plain (cta : Cta) (warp pos : ℕ) (kind : Kind) : Event where
  cta := cta
  warp := warp
  pos := pos
  t := none
  pc := ""
  sass := ""
  kind := some kind
  mask := 1
  ranges := []
  flags := []
  bar := none
  barSet := []
  rawBars := none
  srcBar := none
  token := .missing
  success := none
  members := 0
  barId := none
  barCount := none

abbrev WarpKey := Cta × ℕ

/-- Whether an async event has more than one range. -/
def Event.manyAsync (ev : Event) : Bool := ev.kind.any Kind.isAsync && decide (1 < ev.ranges.length)

/-- Every warp's events: each at the position it records, with an active lane, and an
async operation with one range at most. -/
structure PerWarp where
  warps : Dict WarpKey (List Event)
  placed : ∀ key evs, (key, evs) ∈ warps.entries → ∀ (i : ℕ) (ev : Event), evs[i]? = some ev →
    ev.cta = key.1 ∧ ev.warp = key.2 ∧ ev.pos = i
  active : ∀ key evs, (key, evs) ∈ warps.entries → ∀ ev ∈ evs, Event.mask ev ≠ 0
  single : ∀ key evs, (key, evs) ∈ warps.entries → ∀ ev ∈ evs, ev.manyAsync = false

namespace PerWarp

/-- Whether each event is as `PerWarp` requires. -/
def placedOk (es : List (WarpKey × List Event)) : Bool :=
  es.all fun e => e.2.zipIdx.all fun x =>
    x.1.cta = e.1.1 ∧ x.1.warp = e.1.2 ∧ x.1.pos = x.2 ∧ x.1.mask ≠ 0 ∧ x.1.manyAsync = false

theorem of_placedOk {es : List (WarpKey × List Event)} (h : placedOk es = true) {key : WarpKey}
    {evs : List Event} (hentry : (key, evs) ∈ es) {i : ℕ} {ev : Event} (hev : evs[i]? = some ev) :
    ev.cta = key.1 ∧ ev.warp = key.2 ∧ ev.pos = i ∧ ev.mask ≠ 0 ∧ ev.manyAsync = false := by
  have hwarp := List.all_eq_true.mp h _ hentry
  have hplace := List.all_eq_true.mp hwarp (ev, i) (List.mk_mem_zipIdx_iff_getElem?.mpr hev)
  simpa using hplace

def ofEntries (es : List (WarpKey × List Event)) (hnodup : (es.map Prod.fst).Nodup)
    (h : placedOk es = true) : PerWarp where
  warps := ⟨es, hnodup⟩
  placed := by
    intro key evs hentry i ev hev
    obtain ⟨hc, hw, hp, -⟩ := of_placedOk h hentry hev
    exact ⟨hc, hw, hp⟩
  active := by
    intro key evs hentry ev hmem
    obtain ⟨i, hi⟩ := List.mem_iff_getElem?.mp hmem
    exact (of_placedOk h hentry hi).2.2.2.1
  single := by
    intro key evs hentry ev hmem
    obtain ⟨i, hi⟩ := List.mem_iff_getElem?.mp hmem
    exact (of_placedOk h hentry hi).2.2.2.2

/-- `per_warp[(cta, warp)]`. -/
def events (pw : PerWarp) (cta : Cta) (warp : ℕ) : List Event := (pw.warps.get? (cta, warp)).getD []

def all (pw : PerWarp) : List Event := pw.warps.entries.flatMap Prod.snd

def ctas (pw : PerWarp) : List Cta := pw.warps.keys.map Prod.fst

theorem mem_events {pw : PerWarp} {cta : Cta} {warp : ℕ} {i : ℕ} {ev : Event}
    (h : (pw.events cta warp)[i]? = some ev) :
    ev.cta = cta ∧ ev.warp = warp ∧ ev.pos = i ∧ ev.mask ≠ 0 ∧ ev ∈ pw.all ∧ cta ∈ pw.ctas := by
  unfold events at h
  cases hg : pw.warps.get? (cta, warp) with
  | none => simp [hg] at h
  | some evs =>
    simp only [hg, Option.getD_some] at h
    have hentry := (pw.warps.get?_eq_some_iff (cta, warp) evs).mp hg
    obtain ⟨hc, hw, hp⟩ := pw.placed _ _ hentry i ev h
    have hmem := List.mem_of_getElem? h
    refine ⟨hc, hw, hp, pw.active _ _ hentry ev hmem, ?_, ?_⟩
    · exact List.mem_flatMap.mpr ⟨_, hentry, hmem⟩
    · exact List.mem_map.mpr ⟨(cta, warp), List.mem_map.mpr ⟨_, hentry, rfl⟩, rfl⟩

theorem mem_all_of_mem_events {pw : PerWarp} {cta : Cta} {warp : ℕ} {ev : Event}
    (h : ev ∈ pw.events cta warp) : ev ∈ pw.all ∧ ev.cta = cta := by
  obtain ⟨i, hi⟩ := List.mem_iff_getElem?.mp h
  obtain ⟨hc, -, -, -, hall, -⟩ := mem_events hi
  exact ⟨hall, hc⟩

theorem manyAsync_of_mem_all {pw : PerWarp} {ev : Event} (h : ev ∈ pw.all) : ev.manyAsync = false := by
  obtain ⟨⟨key, evs⟩, hentry, hmem⟩ := List.mem_flatMap.mp h
  exact pw.single key evs hentry ev hmem

theorem mem_all {pw : PerWarp} {ev : Event} (h : ev ∈ pw.all) :
    (pw.events ev.cta ev.warp)[ev.pos]? = some ev := by
  obtain ⟨⟨key, evs⟩, hentry, hmem⟩ := List.mem_flatMap.mp h
  obtain ⟨i, hi⟩ := List.mem_iff_getElem?.mp hmem
  obtain ⟨hc, hw, hp⟩ := pw.placed key evs hentry i ev hi
  have hg := (pw.warps.get?_eq_some_iff key evs).mpr hentry
  rw [events, hc, hw, hp, hg]
  exact hi

/-- An event is told by its warp and position. -/
theorem eq_of_place {pw : PerWarp} {ev ev' : Event} (h : ev ∈ pw.all) (h' : ev' ∈ pw.all)
    (hc : ev.cta = ev'.cta) (hw : ev.warp = ev'.warp) (hp : ev.pos = ev'.pos) : ev = ev' := by
  have hget := mem_all h
  rw [hc, hw, hp, mem_all h'] at hget
  exact (Option.some.inj hget).symm

theorem filter_flatMap_entries {es : List (WarpKey × List Event)} (hnodup : (es.map Prod.fst).Nodup)
    (hplaced : ∀ e ∈ es, ∀ ev ∈ e.2, (ev.cta, ev.warp) = e.1) (key : WarpKey) :
    (es.flatMap Prod.snd).filter (fun ev => (ev.cta, ev.warp) = key) =
      (Dict.lookup key es).getD [] := by
  induction es with
  | nil => rfl
  | cons e es ih =>
    rw [List.map_cons, List.nodup_cons] at hnodup
    have hrest := ih hnodup.2 fun e' he' => hplaced e' (List.mem_cons_of_mem e he')
    have hhead := hplaced e List.mem_cons_self
    rw [List.flatMap_cons, List.filter_append, hrest]
    by_cases he : e.1 = key
    · subst he
      have hnone : Dict.lookup e.1 es = none := by
        cases hl : Dict.lookup e.1 es with
        | none => rfl
        | some v =>
          have := (Dict.lookup_eq_some_iff hnodup.2 e.1 v).mp hl
          exact absurd (List.mem_map.mpr ⟨_, this, rfl⟩) hnodup.1
      rw [hnone, List.filter_eq_self.mpr fun ev hev => by simpa using hhead ev hev]
      simp [Dict.lookup]
    · have hnil : e.2.filter (fun ev => (ev.cta, ev.warp) = key) = [] :=
        List.filter_eq_nil_iff.mpr fun ev hev => by
          rw [decide_eq_true_eq, hhead ev hev]
          exact he
      simp [hnil, Dict.lookup, he]

/-- The events of one warp, found among all. -/
theorem filter_all (pw : PerWarp) (cta : Cta) (warp : ℕ) :
    pw.all.filter (fun ev => (ev.cta, ev.warp) = (cta, warp)) = pw.events cta warp := by
  refine filter_flatMap_entries pw.warps.nodup ?_ (cta, warp)
  rintro ⟨key, evs⟩ hentry ev hev
  obtain ⟨i, hi⟩ := List.mem_iff_getElem?.mp hev
  obtain ⟨hc, hw, -⟩ := pw.placed key evs hentry i ev hi
  rw [hc, hw]

end PerWarp

end CuTracer.MemoryModel
