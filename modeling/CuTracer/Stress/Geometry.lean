import CuTracer.Stress.Progress
import Mathlib.Data.List.Induction
import Mathlib.Order.Bounds.Basic

/-! The targets an isolate search derives from its control runs. The geometry
merges warps and cluster sizes separately: over the launches of one kernel, and
over runs, where only the widest kernel of each run counts. Both components are
greatest elements of sets of launches, and every derived target is live exactly
if one launch reaches both at once. -/

namespace CuTracer.Stress

open Json (field)

abbrev Launches := List (String × LaunchGeometry)

/-- The warp counts of the launches of one kernel, or their cluster sizes. -/
def countsOf (f : LaunchGeometry → ℕ) (launches : Launches) (checksum : String) : Set ℕ :=
  {n | ∃ l ∈ launches, l.1 = checksum ∧ f l.2 = n}

/-! ### Merging the launches of one kernel -/

theorem countsOf_concat (f : LaunchGeometry → ℕ) (launches : Launches) (l : String × LaunchGeometry)
    (checksum : String) :
    countsOf f (launches ++ [l]) checksum =
      if l.1 = checksum then countsOf f launches checksum ∪ {f l.2}
      else countsOf f launches checksum := by
  ext n
  split_ifs with h
  · simp only [countsOf, List.mem_append, List.mem_singleton, Set.mem_ofPred_eq, Set.mem_union,
      Set.mem_singleton_iff]
    constructor
    · rintro ⟨l', hl' | rfl, hc, hn⟩
      · exact .inl ⟨l', hl', hc, hn⟩
      · exact .inr hn.symm
    · rintro (⟨l', hl', hc, hn⟩ | hn)
      · exact ⟨l', .inl hl', hc, hn⟩
      · exact ⟨l, .inr rfl, h, hn.symm⟩
  · simp only [countsOf, List.mem_append, List.mem_singleton, Set.mem_ofPred_eq]
    constructor
    · rintro ⟨l', hl' | rfl, hc, hn⟩
      · exact ⟨l', hl', hc, hn⟩
      · exact absurd hc h
    · rintro ⟨l', hl', hc, hn⟩
      exact ⟨l', .inl hl', hc, hn⟩

/-- A merged geometry is the greatest in both components. -/
structure MergedFrom (launches : Launches) (checksum : String) (g : LaunchGeometry) : Prop where
  warps : IsGreatest (countsOf LaunchGeometry.warps launches checksum) g.warps
  clusterSize : IsGreatest (countsOf LaunchGeometry.clusterSize launches checksum) g.clusterSize

variable {l : String × LaunchGeometry}

theorem MergedFrom.concat {launches : Launches} {g : LaunchGeometry}
    (h : MergedFrom launches l.1 g) : MergedFrom (launches ++ [l]) l.1 (l.2.merge (some g)) where
  warps := by
    rw [countsOf_concat, if_pos rfl, Set.union_comm]
    exact isGreatest_singleton.union h.warps
  clusterSize := by
    rw [countsOf_concat, if_pos rfl, Set.union_comm]
    exact isGreatest_singleton.union h.clusterSize

theorem mergedFrom_first {launches : Launches} (h : ∀ l' ∈ launches, l'.1 ≠ l.1) :
    MergedFrom (launches ++ [l]) l.1 l.2 := by
  have hempty : ∀ f : LaunchGeometry → ℕ, countsOf f launches l.1 = ∅ := by
    intro f
    ext n
    simp only [countsOf, Set.mem_ofPred_eq, Set.mem_empty_iff_false, iff_false]
    rintro ⟨l', hl', hc, -⟩
    exact h l' hl' hc
  constructor
  · rw [countsOf_concat, if_pos rfl, hempty, Set.empty_union]
    exact isGreatest_singleton
  · rw [countsOf_concat, if_pos rfl, hempty, Set.empty_union]
    exact isGreatest_singleton

/-- Each kernel's entry is merged from its launches. -/
theorem byChecksum_get? (launches : Launches) (checksum : String) :
    match (byChecksum launches).get? checksum with
    | none => ∀ l ∈ launches, l.1 ≠ checksum
    | some g => MergedFrom launches checksum g := by
  induction launches using List.reverseRecOn generalizing checksum with
  | nil => simp [byChecksum]
  | append_singleton launches l ih =>
    have hstep : byChecksum (launches ++ [l]) = (byChecksum launches).upsert l.1 l.2.merge := by
      simp [byChecksum, List.foldl_append]
    rw [hstep, Dict.get?_upsert]
    by_cases hc : checksum = l.1
    · subst hc
      rw [if_pos rfl]
      have := ih l.1
      cases hg : (byChecksum launches).get? l.1 with
      | none =>
        rw [hg] at this
        exact mergedFrom_first this
      | some g =>
        rw [hg] at this
        exact this.concat
    · rw [if_neg hc]
      have := ih checksum
      cases hg : (byChecksum launches).get? checksum with
      | none =>
        rw [hg] at this
        intro l' hl'
        rcases List.mem_append.mp hl' with h | h
        · exact this l' h
        · rw [List.mem_singleton.mp h]
          exact Ne.symm hc
      | some g =>
        rw [hg] at this
        refine ⟨?_, ?_⟩
        · rw [countsOf_concat, if_neg (Ne.symm hc)]
          exact this.warps
        · rw [countsOf_concat, if_neg (Ne.symm hc)]
          exact this.clusterSize

/-! ### The widest kernel of a run -/

theorem LaunchGeometry.not_keyLt_trans {a b c : LaunchGeometry} (h : ¬ keyLt b a) (h' : ¬ keyLt c b) :
    ¬ keyLt c a := by
  simp only [keyLt] at *
  omega

/-- `max` returns an element that no other exceeds. -/
theorem LaunchGeometry.widest_spec {gs : List LaunchGeometry} {g : LaunchGeometry}
    (h : widest gs = some g) : g ∈ gs ∧ ∀ g' ∈ gs, ¬ keyLt g g' := by
  cases gs with
  | nil => simp [widest] at h
  | cons g₀ gs =>
    cases h
    have key : ∀ (gs : List LaunchGeometry) (b : LaunchGeometry),
        let m := gs.foldl (fun best h => if keyLt best h then h else best) b
        (m = b ∨ m ∈ gs) ∧ ¬ keyLt m b ∧ ∀ g' ∈ gs, ¬ keyLt m g' := by
      intro gs
      induction gs with
      | nil => intro b; simp [keyLt]
      | cons x xs ih =>
        intro b
        obtain ⟨hmem, hb, hall⟩ := ih (if keyLt b x then x else b)
        simp only [List.foldl_cons, List.mem_cons]
        generalize xs.foldl (fun best h => if keyLt best h then h else best)
          (if keyLt b x then x else b) = m at *
        split_ifs at hmem hb with hlt
        · refine ⟨by tauto, ?_, ?_⟩
          · simp only [keyLt] at *
            omega
          · rintro g' (rfl | hg')
            · exact hb
            · exact hall g' hg'
        · refine ⟨by tauto, hb, ?_⟩
          rintro g' (rfl | hg')
          · exact not_keyLt_trans hlt hb
          · exact hall g' hg'
    obtain ⟨hmem, hb, hall⟩ := key gs g₀
    refine ⟨by simpa using hmem, ?_⟩
    rintro g' hg'
    rcases List.mem_cons.mp hg' with rfl | hg'
    · exact hb
    · exact hall g' hg'

variable (launches : Launches)

/-- Whether a kernel has a launch with as many warps as any launch of the run. -/
def Widest (checksum : String) : Prop :=
  ∃ l ∈ launches, l.1 = checksum ∧ ∀ l' ∈ launches, l'.2.warps ≤ l.2.warps

def warpCounts : Set ℕ := {n | ∃ l ∈ launches, l.2.warps = n}

def widestClusters : Set ℕ :=
  {n | ∃ l ∈ launches, Widest launches l.1 ∧ l.2.clusterSize = n}

/-- A geometry that is greatest in both components. -/
structure Spans (warps clusters : Set ℕ) (g : LaunchGeometry) : Prop where
  warps : IsGreatest warps g.warps
  clusterSize : IsGreatest clusters g.clusterSize

def RunSpec : Option LaunchGeometry → Prop
  | none => launches = []
  | some g => Spans (warpCounts launches) (widestClusters launches) g

theorem widest_byChecksum (launches : Launches) :
    RunSpec launches (LaunchGeometry.widest (byChecksum launches).values) := by
  have hspec := byChecksum_get? launches
  cases hw : LaunchGeometry.widest (byChecksum launches).values with
  | none =>
    cases launches with
    | nil => rfl
    | cons l ls =>
      exfalso
      have hl := hspec l.1
      cases hg : (byChecksum (l :: ls)).get? l.1 with
      | none =>
        rw [hg] at hl
        exact hl l (by simp) rfl
      | some g =>
        have hmem := ((byChecksum (l :: ls)).get?_eq_some_iff l.1 g).mp hg
        have hval : g ∈ (byChecksum (l :: ls)).values := List.mem_map.mpr ⟨_, hmem, rfl⟩
        cases hv : (byChecksum (l :: ls)).values with
        | nil => simp [hv] at hval
        | cons g' gs => simp [hv, LaunchGeometry.widest] at hw
  | some g =>
    obtain ⟨hmem, hmax⟩ := LaunchGeometry.widest_spec hw
    obtain ⟨⟨checksum, g'⟩, hentry, rfl⟩ := List.mem_map.mp hmem
    -- every launch is below the merged geometry of its kernel, which is below the widest
    have hkernel : ∀ l ∈ launches, ∃ m, MergedFrom launches l.1 m ∧ ¬ LaunchGeometry.keyLt g' m := by
      intro l hl
      have hs := hspec l.1
      cases hg : (byChecksum launches).get? l.1 with
      | none =>
        rw [hg] at hs
        exact absurd rfl (hs l hl)
      | some m =>
        rw [hg] at hs
        have hval : m ∈ (byChecksum launches).values :=
          List.mem_map.mpr ⟨(l.1, m), ((byChecksum launches).get?_eq_some_iff l.1 m).mp hg, rfl⟩
        exact ⟨m, hs, hmax m hval⟩
    have hself : MergedFrom launches checksum g' := by
      have := hspec checksum
      rwa [((byChecksum launches).get?_eq_some_iff checksum g').mpr hentry] at this
    have hwarps : ∀ l ∈ launches, l.2.warps ≤ g'.warps := by
      intro l hl
      obtain ⟨m, hm, hlt⟩ := hkernel l hl
      have h1 := hm.warps.2 ⟨l, hl, rfl, rfl⟩
      simp only [LaunchGeometry.keyLt] at hlt
      omega
    obtain ⟨lw, hlw, hlwc, hlwn⟩ := hself.warps.1
    obtain ⟨lc, hlc, hlcc, hlcn⟩ := hself.clusterSize.1
    have hwidest : Widest launches checksum := ⟨lw, hlw, hlwc, fun l' hl' => hlwn ▸ hwarps l' hl'⟩
    refine ⟨⟨⟨lw, hlw, hlwn⟩, ?_⟩, ⟨⟨lc, hlc, hlcc ▸ hwidest, hlcn⟩, ?_⟩⟩
    · rintro n ⟨l, hl, rfl⟩
      exact hwarps l hl
    · rintro n ⟨l, hl, ⟨l', hl', hlc', hall⟩, rfl⟩
      obtain ⟨m, hm, hlt⟩ := hkernel l hl
      have h1 : l'.2.warps ≤ m.warps := hm.warps.2 ⟨l', hl', hlc', rfl⟩
      have h2 : g'.warps ≤ l'.2.warps := hlwn ▸ hall lw hlw
      have h3 : l.2.clusterSize ≤ m.clusterSize := hm.clusterSize.2 ⟨l, hl, rfl, rfl⟩
      simp only [LaunchGeometry.keyLt] at hlt
      show l.2.clusterSize ≤ g'.clusterSize
      omega

/-! ### All control runs -/

/-- The checksums of a run's kernels with delay points. -/
def delayChecksums (dump : Option Dump) : List String :=
  match dumpKernels dump with
  | none => []
  | some kernels =>
    match kernelChecksums kernels with
    | .error _ => []
    | .ok checksums => checksums

/-- The launches of a control run whose kernels have delay points. -/
def runLaunches (run : BaselineRun) : Launches :=
  (kernelLaunchEvents run.events).filterMap (instrumentedLaunch (delayChecksums run.dump))

theorem instrumentedGeometry_spec {run : BaselineRun} {geometry : Option LaunchGeometry}
    (h : instrumentedGeometry run.events run.dump = .ok geometry) :
    RunSpec (runLaunches run) geometry := by
  unfold instrumentedGeometry at h
  cases hk : dumpKernels run.dump with
  | none =>
    simp only [hk] at h
    cases h
    have hnone : ∀ event, instrumentedLaunch [] event = none := by
      intro event
      unfold instrumentedLaunch
      split <;> simp
    show runLaunches run = []
    simp [runLaunches, delayChecksums, hk, hnone]
  | some kernels =>
    simp only [hk] at h
    cases hc : kernelChecksums kernels with
    | error e => simp [hc] at h
    | ok checksums =>
      simp only [hc] at h
      cases h
      have hlaunches : runLaunches run =
          (kernelLaunchEvents run.events).filterMap (instrumentedLaunch checksums) := by
        simp [runLaunches, delayChecksums, hk, hc]
      rw [hlaunches]
      exact widest_byChecksum _

/-- The launches of the first `n` control runs, through a set of each run. -/
def upTo (runs : ℕ → BaselineRun) (n : ℕ) (f : Launches → Set ℕ) : Set ℕ :=
  {m | ∃ i < n, m ∈ f (runLaunches (runs i))}

theorem upTo_succ (runs : ℕ → BaselineRun) (n : ℕ) (f : Launches → Set ℕ) :
    upTo runs (n + 1) f = f (runLaunches (runs n)) ∪ upTo runs n f := by
  ext m
  simp only [upTo, Set.mem_ofPred_eq, Set.mem_union, Nat.lt_succ_iff_lt_or_eq]
  constructor
  · rintro ⟨i, hi | rfl, hm⟩
    · exact .inr ⟨i, hi, hm⟩
    · exact .inl hm
  · rintro (hm | ⟨i, hi, hm⟩)
    · exact ⟨n, .inr rfl, hm⟩
    · exact ⟨i, .inl hi, hm⟩

/-- What the control arm knows after `n` runs. -/
def GeometrySpec (runs : ℕ → BaselineRun) (n : ℕ) : Option LaunchGeometry → Prop
  | none => ∀ i < n, runLaunches (runs i) = []
  | some g => Spans (upTo runs n warpCounts) (upTo runs n widestClusters) g

variable {runs : ℕ → BaselineRun}

theorem GeometrySpec.merge {n : ℕ} {geometry launches : Option LaunchGeometry}
    (h : GeometrySpec runs n geometry)
    (hrun : instrumentedGeometry (runs n).events (runs n).dump = .ok launches) :
    GeometrySpec runs (n + 1) (mergeGeometry geometry launches) := by
  have hspec := instrumentedGeometry_spec hrun
  have hempty : ∀ f : Launches → Set ℕ, f [] = ∅ → (∀ i < n, runLaunches (runs i) = []) →
      upTo runs n f = ∅ := by
    intro f hf hnil
    ext m
    simp only [upTo, Set.mem_ofPred_eq, Set.mem_empty_iff_false, iff_false]
    rintro ⟨i, hi, hm⟩
    rw [hnil i hi, hf] at hm
    exact hm
  have hw : warpCounts [] = ∅ := by simp [warpCounts]
  have hc : widestClusters [] = ∅ := by simp [widestClusters]
  cases launches with
  | none =>
    cases geometry with
    | none =>
      intro i hi
      rcases Nat.lt_succ_iff_lt_or_eq.mp hi with hi | rfl
      · exact h i hi
      · exact hspec
    | some g =>
      have hnil : runLaunches (runs n) = [] := hspec
      simp only [GeometrySpec, mergeGeometry, upTo_succ, hnil, hw, hc, Set.empty_union]
      exact h
  | some l =>
    cases geometry with
    | none =>
      have h : ∀ i < n, runLaunches (runs i) = [] := h
      simp only [GeometrySpec, mergeGeometry, upTo_succ, hempty _ hw h, hempty _ hc h, Set.union_empty]
      exact hspec
    | some g =>
      simp only [GeometrySpec, mergeGeometry, upTo_succ]
      exact ⟨hspec.warps.union h.warps, hspec.clusterSize.union h.clusterSize⟩

/-- The control runs merge the geometry of each. -/
theorem baselineFrom_geometry {config : StressConfig} (hiso : config.strategy = .isolate)
    {n attempt : ℕ} {acc result : BaselineResult}
    (h : baselineFrom config runs n attempt acc = .ok result)
    (hacc : GeometrySpec runs attempt acc.geometry) :
    GeometrySpec runs (attempt + n) result.geometry := by
  induction n generalizing attempt acc with
  | zero =>
    cases h
    exact hacc
  | succ n ih =>
    unfold baselineFrom at h
    cases hs : baselineStep config acc attempt (runs attempt) with
    | error e => simp [hs] at h
    | ok acc' =>
      simp only [hs] at h
      have hstep : GeometrySpec runs (attempt + 1) acc'.geometry := by
        unfold baselineStep at hs
        split at hs
        · cases hs
        · simp only [runGeometry, hiso] at hs
          split at hs
          · cases hs
          · rename_i launches hrun
            cases hs
            exact hacc.merge hrun
      have := ih h hstep
      rwa [Nat.add_right_comm] at this

theorem runBaseline_geometry {config : StressConfig} (hiso : config.strategy = .isolate)
    {result : BaselineResult} (h : runBaseline config runs = .ok result) :
    GeometrySpec runs config.baselineRuns result.geometry := by
  have := baselineFrom_geometry hiso h (by intro i hi; omega)
  rwa [Nat.zero_add] at this

/-! ### Live targets -/

/-- Whether a launch event of a kernel with delay points has the target. -/
def LiveIn (run : BaselineRun) (target : DelayTarget) : Prop :=
  ∃ event ∈ kernelLaunchEvents run.events,
    (∃ checksum ∈ delayChecksums run.dump, field event "kernel_checksum" = some (.str checksum)) ∧
      targetLive target.warp target.clusterRank event = true

theorem mem_runLaunches {run : BaselineRun} :
    l ∈ runLaunches run ↔ ∃ event ∈ kernelLaunchEvents run.events, l.1 ∈ delayChecksums run.dump ∧
      field event "kernel_checksum" = some (.str l.1) ∧ blockWarps event = some l.2.warps ∧
      clusterSize event = l.2.clusterSize := by
  obtain ⟨checksum, warps, clusters⟩ := l
  simp only [runLaunches, List.mem_filterMap]
  constructor
  · rintro ⟨event, hevent, h⟩
    unfold instrumentedLaunch at h
    split at h
    · rename_i w c hw hc
      split_ifs at h with hmem
      simp only [Option.some.injEq, Prod.mk.injEq, LaunchGeometry.mk.injEq] at h
      obtain ⟨rfl, rfl, rfl⟩ := h
      exact ⟨event, hevent, hmem, hc, hw, rfl⟩
    · simp at h
  · rintro ⟨event, hevent, hmem, hc, hw, rfl⟩
    exact ⟨event, hevent, by simp [instrumentedLaunch, hw, hc, hmem]⟩

theorem liveIn_iff {run : BaselineRun} {target : DelayTarget} :
    LiveIn run target ↔ ∃ l ∈ runLaunches run, target.warp < l.2.warps ∧
      ∀ rank ∈ target.clusterRank, rank < l.2.clusterSize := by
  constructor
  · rintro ⟨event, hevent, ⟨checksum, hmem, hc⟩, hlive⟩
    unfold targetLive at hlive
    cases hw : blockWarps event with
    | none => simp [hw] at hlive
    | some warps =>
      simp only [hw, Bool.and_eq_true, decide_eq_true_eq] at hlive
      refine ⟨(checksum, ⟨warps, clusterSize event⟩),
        mem_runLaunches.mpr ⟨event, hevent, hmem, hc, hw, rfl⟩, hlive.1, ?_⟩
      intro rank hrank
      rw [Option.mem_def] at hrank
      simpa [hrank] using hlive.2
  · rintro ⟨l, hl, hwarp, hrank⟩
    obtain ⟨event, hevent, hmem, hc, hw, hcluster⟩ := mem_runLaunches.mp hl
    refine ⟨event, hevent, ⟨l.1, hmem, hc⟩, ?_⟩
    unfold targetLive
    simp only [hw, hcluster, Bool.and_eq_true, decide_eq_true_eq]
    refine ⟨hwarp, ?_⟩
    cases hr : target.clusterRank with
    | none => rfl
    | some rank => simpa using hrank rank hr

theorem one_le_of_mem_runLaunches {run : BaselineRun} (h : l ∈ runLaunches run) :
    1 ≤ l.2.warps ∧ 1 ≤ l.2.clusterSize := by
  obtain ⟨event, -, -, -, hw, hc⟩ := mem_runLaunches.mp h
  refine ⟨?_, hc ▸ one_le_clusterSize event⟩
  unfold blockWarps at hw
  split at hw
  · rename_i x y z _
    split_ifs at hw with hpos
    have : 0 < x * y * z := Int.mul_pos (Int.mul_pos hpos.1 hpos.2.1) hpos.2.2
    simp only [Option.some.injEq] at hw
    omega
  · simp at hw

theorem mem_isolateTargets {config : StressConfig} {g : LaunchGeometry} {targets : List DelayTarget}
    (hranks : config.isolateRanks = none) (hwarps : config.isolateWarps = none)
    (h : isolateTargets config (some g) = .ok targets) (target : DelayTarget) :
    target ∈ targets ↔ target.warp < min maxWarps g.warps ∧
      if 1 < g.clusterSize then ∃ rank < g.clusterSize, target.clusterRank = some rank
      else target.clusterRank = none := by
  obtain ⟨warp, rank⟩ := target
  simp only [isolateTargets, reduceCtorEq, and_false, if_false, isolateRankList, isolateWarpList,
    hranks, hwarps, Except.ok.injEq, Option.map_some, Option.getD_some] at h
  subst h
  simp only [List.mem_flatMap, List.mem_map, DelayTarget.mk.injEq, List.mem_range]
  split_ifs with hc
  · simp only [List.mem_map, List.mem_reverse, List.mem_range]
    constructor
    · rintro ⟨_, ⟨r, hr, rfl⟩, w, hw, rfl, rfl⟩
      exact ⟨hw, r, hr, rfl⟩
    · rintro ⟨hw, r, hr, rfl⟩
      exact ⟨some r, ⟨r, hr, rfl⟩, warp, hw, rfl, rfl⟩
  · simp only [List.mem_singleton]
    constructor
    · rintro ⟨_, rfl, w, hw, rfl, rfl⟩
      exact ⟨hw, rfl⟩
    · rintro ⟨hw, rfl⟩
      exact ⟨none, rfl, warp, hw, rfl, rfl⟩

/-- One recorded launch has as many warps as any (up to the 32 of a mask), and a
cluster as large as any launch of a kernel that is widest in its run. -/
def OneLaunchCovers (runs : ℕ → BaselineRun) (n : ℕ) : Prop :=
  ∃ i < n, ∃ l ∈ runLaunches (runs i), ∀ j < n, ∀ l' ∈ runLaunches (runs j),
    min maxWarps l'.2.warps ≤ l.2.warps ∧
      (Widest (runLaunches (runs j)) l'.1 → l'.2.clusterSize ≤ l.2.clusterSize)

theorem oneLaunchCovers_iff {n : ℕ} {g : LaunchGeometry} (h : GeometrySpec runs n (some g)) :
    OneLaunchCovers runs n ↔ ∃ i < n, ∃ l ∈ runLaunches (runs i),
      min maxWarps g.warps ≤ l.2.warps ∧ g.clusterSize ≤ l.2.clusterSize := by
  obtain ⟨⟨hwmem, hwmax⟩, ⟨hcmem, hcmax⟩⟩ := h
  obtain ⟨iw, hiw, lw, hlw, hgw⟩ := hwmem
  obtain ⟨ic, hic, lc, hlc, hwidest, hgc⟩ := hcmem
  constructor
  · rintro ⟨i, hi, l, hl, hall⟩
    exact ⟨i, hi, l, hl, hgw ▸ (hall iw hiw lw hlw).1, hgc ▸ (hall ic hic lc hlc).2 hwidest⟩
  · rintro ⟨i, hi, l, hl, hw, hc⟩
    refine ⟨i, hi, l, hl, fun j hj l' hl' => ⟨?_, fun hwide => ?_⟩⟩
    · have : l'.2.warps ≤ g.warps := hwmax ⟨j, hj, l', hl', rfl⟩
      omega
    · have : l'.2.clusterSize ≤ g.clusterSize := hcmax ⟨j, hj, l', hl', hwide, rfl⟩
      omega

/-- Every target that an isolate search derives from its control runs is live in
some recorded launch exactly if one launch covers them all. -/
theorem derived_targets_live_iff {config : StressConfig} {world : World} {disk : Disk} {plan : Plan}
    (hiso : config.strategy = .isolate) (hranks : config.isolateRanks = none)
    (hwarps : config.isolateWarps = none) (hplan : prepareSearch config world disk none = .ok plan) :
    (∀ target ∈ plan.targets, ∃ i < config.baselineRuns, LiveIn (world.baseline i) target) ↔
      OneLaunchCovers world.baseline config.baselineRuns := by
  obtain ⟨baseline, hbaseline, htargets, -⟩ := prepareSearch_ok hplan
  have hgeometry := runBaseline_geometry hiso hbaseline
  simp only [planTargets, hiso, Option.isSome_none, Bool.false_eq_true, false_and, if_false] at htargets
  cases hg : baseline.geometry with
  | none =>
    simp only [isolateTargets, explicitTargets, hranks, hg] at htargets
    split_ifs at htargets
    simp_all
  | some g =>
    rw [hg] at hgeometry htargets
    have hmem := mem_isolateTargets hranks hwarps htargets
    have hpos : 1 ≤ g.warps ∧ 1 ≤ g.clusterSize := by
      obtain ⟨⟨⟨i, -, l, hl, hw⟩, -⟩, ⟨⟨j, -, l', hl', -, hc⟩, -⟩⟩ := hgeometry
      exact ⟨hw ▸ (one_le_of_mem_runLaunches hl).1, hc ▸ (one_le_of_mem_runLaunches hl').2⟩
    rw [oneLaunchCovers_iff hgeometry]
    constructor
    · -- the last warp of the last rank decides
      intro hall
      have hcorner : (⟨min maxWarps g.warps - 1,
          if 1 < g.clusterSize then some (g.clusterSize - 1) else none⟩ : DelayTarget) ∈
            plan.targets := by
        rw [hmem]
        refine ⟨by simp only [maxWarps]; omega, ?_⟩
        split_ifs
        · exact ⟨g.clusterSize - 1, by omega, rfl⟩
        · rfl
      obtain ⟨i, hi, hlive⟩ := hall _ hcorner
      obtain ⟨l, hl, hwarp, hrank⟩ := liveIn_iff.mp hlive
      replace hwarp : min maxWarps g.warps - 1 < l.2.warps := hwarp
      refine ⟨i, hi, l, hl, by omega, ?_⟩
      have hone := (one_le_of_mem_runLaunches hl).2
      by_cases hc : 1 < g.clusterSize
      · have := hrank (g.clusterSize - 1) (by simp [hc])
        omega
      · omega
    · rintro ⟨i, hi, l, hl, hw, hc⟩ target htarget
      obtain ⟨hwarp, hrank⟩ := (hmem target).mp htarget
      refine ⟨i, hi, liveIn_iff.mpr ⟨l, hl, by omega, ?_⟩⟩
      intro rank hr
      rw [Option.mem_def] at hr
      split_ifs at hrank with hcl
      · obtain ⟨rank', hlt, he⟩ := hrank
        rw [hr] at he
        cases he
        omega
      · simp [hr] at hrank

/-! ### A kernel launched in two shapes -/

/-- An isolate search that learns its targets from one control run. -/
def discovery : StressConfig where
  delayLadderNs := [1000]
  enableProb := 1
  warpgroupIds := []
  attemptsPerDelay := 1
  stopOnFirst := true
  notInterestingExitCodes := []
  kernelFilters := none
  baselineRuns := 1
  outputDir := "/out"
  kernelTimeoutS := 0
  hangIsBug := false
  strategy := .isolate
  isolateRanks := none
  isolateWarps := none
  delayPatterns := none
  expectedKernelName := none
  expectedKernelChecksum := none
  ladder_ne_nil := nofun
  ladder_pos := by decide
  attempts_pos := attempts_pos_one
  prob_range := prob_range_one
  warpgroups_range := warpgroups_range_nil
  isolate_no_warpgroups := fun _ => rfl
  random_no_targets := nofun
  ranks_ne_nil := none_ne_some_nil
  warps_ne_nil := none_ne_some_nil
  warps_range := warps_range_none

/-- A launch of the kernel `c0` with the given threads per CTA and cluster size. -/
def gemmLaunch (threads clusters : ℤ) : Option Json :=
  some (.obj [("type", .str "kernel_launch"), ("kernel_checksum", .str "c0"),
    ("block", .arr [.int threads, .int 1, .int 1]), ("cluster_size", .int clusters)])

/-- A control run that launches the kernel with the shapes of `lines`. -/
def launching (lines : List (Option Json)) : World where
  repr _ := ""
  baseline _ :=
    { target := .completed 1 "" ""
      dump := some (.ok (.obj [("kernels", .obj [("k", .obj [("kernel_checksum", .str "c0"),
        ("instrumentation_points", .obj [("16", .obj [])])])])]))
      watchdog := []
      events := .ok [⟨"cutracer_kernel_events_1.ndjson", lines, none⟩] }
  baselineLogFault := none
  attempt _ := ⟨.completed 1 "" "", none, [], .ok [], none⟩
  logFault _ := none

/-- One launch of eight warps in clusters of two: all sixteen targets are live. -/
theorem derived_targets_live_one_launch :
    ∃ plan, prepareSearch discovery (launching [gemmLaunch 256 2]) ⟨fun _ => none, fun _ => none⟩
        none = .ok plan ∧
      ((∀ target ∈ plan.targets, ∃ i < discovery.baselineRuns,
          LiveIn ((launching [gemmLaunch 256 2]).baseline i) target) ↔
        OneLaunchCovers (launching [gemmLaunch 256 2]).baseline discovery.baselineRuns) :=
  ⟨_, rfl, derived_targets_live_iff rfl rfl rfl rfl⟩

/-- A launch of eight warps without clusters and one of four warps in clusters of
two give a target that neither has. -/
theorem derived_target_not_live :
    ∃ plan, prepareSearch discovery (launching [gemmLaunch 256 1, gemmLaunch 128 2])
        ⟨fun _ => none, fun _ => none⟩ none = .ok plan ∧
      ∃ target ∈ plan.targets, ¬ ∃ i < discovery.baselineRuns,
        LiveIn ((launching [gemmLaunch 256 1, gemmLaunch 128 2]).baseline i) target := by
  refine ⟨_, rfl, ⟨7, some 1⟩, by decide, ?_⟩
  rintro ⟨i, -, hlive⟩
  obtain ⟨l, hl, hwarp, hrank⟩ := liveIn_iff.mp hlive
  have hlaunches : runLaunches ((launching [gemmLaunch 256 1, gemmLaunch 128 2]).baseline i) =
      [("c0", ⟨8, 1⟩), ("c0", ⟨4, 2⟩)] := rfl
  rw [hlaunches, List.mem_cons, List.mem_singleton] at hl
  rcases hl with rfl | rfl
  · exact absurd (hrank 1 rfl) (by decide)
  · exact absurd hwarp (by decide)

end CuTracer.Stress
