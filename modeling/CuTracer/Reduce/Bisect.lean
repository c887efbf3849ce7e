import CuTracer.Library.DeltaDebugging
import CuTracer.Reduce.Oracle
import Mathlib.Data.Finset.Basic

/-! The bisecting reducer. `ddmin` is the recursion of the source with its three
phases; it runs the delta-debugging search of the library with the oracle on
candidate configs as the test. The result is one-minimal unless the recursion
comes down to one point, which the early return hands back without trying the
empty set. -/

namespace CuTracer.Reduce

open DeltaDebugging

def makeConfigWithPoints (base : DelayConfigMutator) (points : List DelayPoint) :
    DelayConfigMutator :=
  let m := base.clone.setAllEnabled false
  let enableSet := points.map DelayPoint.key
  (m.delayPoints.filter fun p => p.key ∈ enableSet).foldl (fun m p => m.setPointEnabled p true) m

/-- Whether the race occurs with only these points enabled. -/
def testSubset (config : ReduceConfig) (base : DelayConfigMutator) (confidenceRuns : ℕ)
    (points : List DelayPoint) : Except ReduceError Bool :=
  config.runTestWithConfidence (makeConfigWithPoints base points).save confidenceRuns

/-- The loop of phases 1 and 2: the first candidate that passes, and the number
of tests made so far. -/
def tryCandidates (test : List DelayPoint → Except ReduceError Bool) :
    List (List DelayPoint) → ℕ → Except ReduceError (Option (List DelayPoint) × ℕ)
  | [], iteration => .ok (none, iteration)
  | c :: cs, iteration =>
    match test c with
    | .error e => .error e
    | .ok true => .ok (some c, iteration + 1)
    | .ok false => tryCandidates test cs (iteration + 1)

variable {test : List DelayPoint → Except ReduceError Bool}

theorem mem_of_tryCandidates {cs : List (List DelayPoint)} {c : List DelayPoint} {i j : ℕ}
    (h : tryCandidates test cs i = .ok (some c, j)) : c ∈ cs := by
  induction cs generalizing i with
  | nil => simp [tryCandidates] at h
  | cons d cs ih =>
    simp only [tryCandidates] at h
    split at h
    · contradiction
    · simp only [Except.ok.injEq, Prod.mk.injEq, Option.some.injEq] at h
      simp [h.1]
    · exact List.mem_cons_of_mem _ (ih h)

/-- `_ddmin`: the points and the iteration count it ends with. -/
def ddmin (test : List DelayPoint → Except ReduceError Bool) (points : List DelayPoint) (n : ℕ)
    (hn : 2 ≤ n) (iteration : ℕ) : Except ReduceError (List DelayPoint × ℕ) :=
  if hsize : points.length ≤ 1 then .ok (points, iteration)
  else
    let size := points.length
    let m := min n size
    let chunks := pieces (max 1 (size / m)) points
    -- phase 1: each chunk alone
    match h1 : tryCandidates test chunks iteration with
    | .error e => .error e
    | .ok (some chunk, iteration) => ddmin test chunk 2 le_rfl iteration
    | .ok (none, iteration) =>
      -- phase 2: the complement of each chunk
      match h2 : tryCandidates test (complements chunks) iteration with
      | .error e => .error e
      | .ok (some complement, iteration) =>
        ddmin test complement (max (m - 1) 2) (le_max_right _ _) iteration
      | .ok (none, iteration) =>
        -- phase 3: finer chunks
        if hlt : m < size then ddmin test points (min (2 * m) size) (by omega) iteration
        else .ok (points, iteration)
termination_by (points.length, points.length - n)
decreasing_by
  · have := length_of_mem_pieces (mem_of_tryCandidates h1)
    exact Prod.Lex.left _ _ (this.trans_lt (pieceLength_lt (by omega) hn))
  · exact Prod.Lex.left _ _
      (length_of_mem_complements (pieceLength_pos points n) (mem_of_tryCandidates h2)).1
  · exact Prod.Lex.right _ (by omega)

def reduceBisect (config : ReduceConfig) (confidenceRuns : ℕ) : Except ReduceError ReduceResult :=
  let base := DelayConfigMutator.load config.delayConfig
  match config.validateInitialConfig base with
  | .error e => .error e
  | .ok () =>
    match ddmin (testSubset config base confidenceRuns) base.enabledPoints 2 le_rfl 0 with
    | .error e => .error e
    | .ok (points, iteration) => .ok
      { totalPoints := base.enabledPoints.length
        essentialPoints := points
        iterations := iteration
        strategy := "bisect"
        minimalConfig := config.outputPath.map fun path =>
          (path, (makeConfigWithPoints base points).save) }

/-! ### Candidate configs -/

variable {points : List DelayPoint}

/-- A candidate config turns on exactly the keys of the given points. -/
theorem enabledKeys_makeConfigWithPoints (base : DelayConfigMutator)
    (h : points ⊆ base.delayPoints) :
    (makeConfigWithPoints base points).save.enabledKeys = keySet points := by
  have hpoints : (makeConfigWithPoints base points).delayPoints =
      base.delayPoints.map fun p => { p with enabled := decide (p.key ∈ points.map DelayPoint.key) } := by
    rw [makeConfigWithPoints, DelayConfigMutator.clone_eq,
      DelayConfigMutator.delayPoints_foldl_setPointEnabled,
      DelayConfigMutator.delayPoints_setAllEnabled, List.map_map]
    apply List.map_congr_left
    intro p hp
    have hsel : p.key ∈ ((base.delayPoints.map fun p => { p with enabled := false }).filter
        fun p => p.key ∈ points.map DelayPoint.key).map DelayPoint.key ↔
        p.key ∈ points.map DelayPoint.key := by
      simp only [List.mem_map, List.mem_filter, decide_eq_true_eq]
      constructor
      · rintro ⟨q, ⟨-, hq⟩, hk⟩
        rwa [← hk]
      · exact fun hk => ⟨{ p with enabled := false }, ⟨⟨p, hp, rfl⟩, hk⟩, rfl⟩
    simp only [Function.comp, setEnabled, DelayPoint.key] at hsel ⊢
    by_cases hk : (p.kernelKey, p.pcOffset) ∈ points.map DelayPoint.key <;>
      simp only [hsel, hk, decide_true, decide_false, if_true, Bool.false_eq_true, if_false]
  rw [DelayConfigMutator.enabledKeys_save, DelayConfigMutator.enabledPoints, hpoints]
  ext k
  simp only [mem_keySet, List.mem_filter, List.mem_map]
  constructor
  · rintro ⟨_, ⟨⟨p, -, rfl⟩, hon⟩, rfl⟩
    simpa [DelayPoint.key] using hon
  · rintro ⟨p, hp, rfl⟩
    exact ⟨_, ⟨⟨p, h hp, rfl⟩, by simpa using ⟨p, hp, rfl⟩⟩, rfl⟩

/-! ### The search behind the recursion -/

variable (oracle : Finset PointKey → Bool)

/-- The oracle on the candidate config of a list of points. -/
def interesting (base : DelayConfigMutator) (points : List DelayPoint) : Bool :=
  oracle (makeConfigWithPoints base points).save.enabledKeys

theorem interesting_eq (oracle : Finset PointKey → Bool) (base : DelayConfigMutator)
    (h : points.Sublist base.enabledPoints) :
    interesting oracle base points = oracle (keySet points) := by
  rw [interesting, enabledKeys_makeConfigWithPoints base
    fun p hp => (List.mem_filter.mp (h.subset hp)).1]

theorem tryCandidates_pure {P : List DelayPoint → Bool} (h : ∀ c, test c = .ok (P c))
    (cs : List (List DelayPoint)) (i : ℕ) : ∃ j, tryCandidates test cs i = .ok (cs.find? P, j) := by
  induction cs generalizing i with
  | nil => exact ⟨i, rfl⟩
  | cons c cs ih =>
    cases hc : P c with
    | true => exact ⟨i + 1, by simp [tryCandidates, h c, hc]⟩
    | false =>
      obtain ⟨j, hj⟩ := ih (i + 1)
      exact ⟨j, by simp [tryCandidates, h c, hc, hj]⟩

/-- Without errors the recursion ends, where the narrowing search has no further
step. -/
theorem ddmin_narrows {P : List DelayPoint → Bool} (h : ∀ c, test c = .ok (P c))
    (points : List DelayPoint) (n : ℕ) (hn : 2 ≤ n) (i : ℕ) :
    ∃ r j m, ddmin test points n hn i = .ok (r, j) ∧
      Relation.ReflTransGen (Narrows P) (points, n) (r, m) ∧ narrow P (r, m) = none := by
  -- what each call of the candidate loop returned
  have found : ∀ {cs i r j}, tryCandidates test cs i = .ok (r, j) → cs.find? P = r := by
    intro cs i r j hr
    obtain ⟨j', hj⟩ := tryCandidates_pure h cs i
    rw [hj, Except.ok.injEq, Prod.mk.injEq] at hr
    exact hr.1
  have noError : ∀ {cs i e}, tryCandidates test cs i ≠ .error e := by
    intro cs i e he
    obtain ⟨j, hj⟩ := tryCandidates_pure h cs i
    rw [hj] at he
    contradiction
  fun_induction ddmin test points n hn i with
  | case1 points n hn i hsize => exact ⟨points, i, n, rfl, .refl, by simp [narrow, hsize]⟩
  | case2 points n hn i hsize size m chunks e he => exact absurd he noError
  | case3 points n hn i hsize size m chunks chunk j h1 ih =>
    obtain ⟨r, k, g, hr, hsteps, hend⟩ := ih
    refine ⟨r, k, g, hr, .head ?_ hsteps, hend⟩
    have hc : (pieces (pieceLength points n) points).find? P = some chunk := found h1
    simp [Narrows, narrow, hsize, hc]
  | case4 points n hn i hsize size m chunks j h1 e he => exact absurd he noError
  | case5 points n hn i hsize size m chunks j h1 complement k h2 ih =>
    obtain ⟨r, l, g, hr, hsteps, hend⟩ := ih
    refine ⟨r, l, g, hr, .head ?_ hsteps, hend⟩
    have hc : (pieces (pieceLength points n) points).find? P = none := found h1
    have hd : (complements (pieces (pieceLength points n) points)).find? P = some complement := found h2
    simp only [Narrows, narrow, hsize, hc, hd]
    rfl
  | case6 points n hn i hsize size m chunks j h1 k h2 hlt ih =>
    obtain ⟨r, l, g, hr, hsteps, hend⟩ := ih
    refine ⟨r, l, g, hr, .head ?_ hsteps, hend⟩
    have hc : (pieces (pieceLength points n) points).find? P = none := found h1
    have hd : (complements (pieces (pieceLength points n) points)).find? P = none := found h2
    simp only [Narrows, narrow, hsize, hc, hd]
    exact if_pos hlt
  | case7 points n hn i hsize size m chunks j h1 k h2 hlt =>
    refine ⟨points, k, n, rfl, .refl, ?_⟩
    have hc : (pieces (pieceLength points n) points).find? P = none := found h1
    have hd : (complements (pieces (pieceLength points n) points)).find? P = none := found h2
    simp only [narrow, hsize, hc, hd]
    exact if_neg hlt

/-- With a deterministic oracle the reducer returns, and its points are the end
of the narrowing search from the enabled points. -/
theorem reduceBisect_returns {config : ReduceConfig} {oracle : Finset PointKey → Bool} (runs : ℕ)
    (hd : config.Decides oracle) (hi : oracle config.delayConfig.enabledKeys = true)
    (hne : (DelayConfigMutator.load config.delayConfig).enabledPoints ≠ []) :
    ∃ r m, reduceBisect config runs = .ok r ∧
      Relation.ReflTransGen (Narrows (interesting oracle (.load config.delayConfig)))
        ((DelayConfigMutator.load config.delayConfig).enabledPoints, 2) (r.essentialPoints, m) ∧
      narrow (interesting oracle (.load config.delayConfig)) (r.essentialPoints, m) = none := by
  have htest : ∀ c, testSubset config (.load config.delayConfig) runs c =
      .ok (interesting oracle (.load config.delayConfig) c) :=
    fun c => ReduceConfig.runTestWithConfidence_decided hd _ runs
  obtain ⟨points, j, m, hdd, hsteps, hend⟩ := ddmin_narrows htest
    (DelayConfigMutator.load config.delayConfig).enabledPoints 2 le_rfl 0
  have hvalid := ReduceConfig.validateInitialConfig_decided hd (.load config.delayConfig) hi
  rw [if_neg hne] at hvalid
  simp only [reduceBisect, hvalid, hdd]
  exact ⟨_, m, rfl, hsteps, hend⟩

/-! ### One-minimality -/

/-- The reducer returned points on which the oracle is interesting, in config
order, and no longer interesting without any single one of them. -/
def OneMinimal (base : DelayConfigMutator) (outcome : Except ReduceError ReduceResult) : Prop :=
  ∃ r, outcome = .ok r ∧ r.essentialPoints.Sublist base.enabledPoints ∧
    oracle (keySet r.essentialPoints) = true ∧
    ∀ p ∈ r.essentialPoints, oracle ((keySet r.essentialPoints).erase p.key) = false

/-- The narrowing search comes down to a single point, where `size <= 1` returns
early. -/
def ReachesOnePoint (base : DelayConfigMutator) : Prop :=
  ∃ p n, Relation.ReflTransGen (Narrows (interesting oracle base)) (base.enabledPoints, 2) ([p], n)

theorem keySet_eraseIdx (h : (points.map DelayPoint.key).Nodup) {i : ℕ} (hi : i < points.length) :
    keySet (points.eraseIdx i) = (keySet points).erase points[i].key := by
  have herase := h.erase_getElem i (by simpa using hi)
  rw [keySet, ← List.eraseIdx_map, ← herase]
  ext k
  simp [keySet, h.mem_erase_iff]

/-- Points the search ends with are one-minimal, if the empty set is not
interesting or there is not just one of them. -/
theorem oneMinimal_of_end {oracle : Finset PointKey → Bool} {base : DelayConfigMutator} {m : ℕ}
    (hsub : points.Sublist base.enabledPoints)
    (hend : narrow (interesting oracle base) (points, m) = none)
    (hone : oracle ∅ = false ∨ points.length ≠ 1) :
    ∀ p ∈ points, oracle ((keySet points).erase p.key) = false := by
  intro p hp
  have hnodup : (points.map DelayPoint.key).Nodup :=
    (enabledPoints_keys_nodup base).sublist (hsub.map _)
  obtain ⟨i, hlt, rfl⟩ := List.getElem_of_mem hp
  by_cases hlen : 1 < points.length
  · rw [← keySet_eraseIdx hnodup hlt,
      ← interesting_eq oracle base ((List.eraseIdx_sublist _ i).trans hsub)]
    exact narrow_eq_none hend hlen hlt
  · have hlen : points.length = 1 := by omega
    obtain ⟨q, rfl⟩ := List.length_eq_one_iff.mp hlen
    rcases hone with hzero | hne
    · simpa [keySet] using hzero
    · exact absurd hlen hne

/-- The bisecting reducer is one-minimal exactly when the oracle is not
interesting on nothing, or some point is enabled and the search does not come
down to a single point. -/
theorem reduceBisect_oneMinimal_iff (config : ReduceConfig) (oracle : Finset PointKey → Bool)
    (runs : ℕ) (hd : config.Decides oracle) (hi : oracle config.delayConfig.enabledKeys = true) :
    OneMinimal oracle (.load config.delayConfig) (reduceBisect config runs) ↔
      oracle ∅ = false ∨ ((DelayConfigMutator.load config.delayConfig).enabledPoints ≠ [] ∧
        ¬ ReachesOnePoint oracle (.load config.delayConfig)) := by
  set base := DelayConfigMutator.load config.delayConfig with hbase
  have hsave : oracle (keySet base.enabledPoints) = true := by
    rwa [← base.enabledKeys_save]
  by_cases hne : base.enabledPoints = []
  · -- no enabled point: the reducer raises, and the oracle is interesting on nothing
    have hzero : oracle ∅ = true := by simpa [hne, keySet] using hsave
    have hvalid := ReduceConfig.validateInitialConfig_decided hd base hi
    rw [if_pos hne] at hvalid
    simp [OneMinimal, reduceBisect, ← hbase, hvalid, hzero, hne]
  obtain ⟨r, m, hr, hsteps, hend⟩ := reduceBisect_returns runs hd hi hne
  have hstart : interesting oracle base base.enabledPoints = true := by
    rw [interesting_eq oracle base (List.Sublist.refl _), hsave]
  obtain ⟨hsub, hpass, -, -⟩ := narrows_keeps hsteps le_rfl hstart
  rw [interesting_eq oracle base hsub] at hpass
  constructor
  · rintro ⟨r', hr', -, -, hmin⟩
    rw [hr, Except.ok.injEq] at hr'
    subst hr'
    by_cases hzero : oracle ∅ = false
    · exact .inl hzero
    refine .inr ⟨hne, ?_⟩
    rintro ⟨p, n, hone⟩
    -- a one-point state has no step, so the search ended there
    have hp : r.essentialPoints = [p] := by
      have := narrows_to_end hsteps hone (by simp [narrow])
      rcases Relation.ReflTransGen.cases_head this with he | ⟨u, hu, -⟩
      · simpa using congrArg Prod.fst he
      · simp [Narrows, hend] at hu
    exact hzero (by simpa [hp, keySet] using hmin p (by simp [hp]))
  · intro hcond
    refine ⟨r, hr, hsub, hpass, oneMinimal_of_end hsub hend (hcond.imp_right ?_)⟩
    rintro ⟨-, hreach⟩ hlen
    obtain ⟨q, hq⟩ := List.length_eq_one_iff.mp hlen
    exact hreach ⟨q, m, hq ▸ hsteps⟩

theorem reduceBisect_two_points :
    OneMinimal (fun on => decide (("kernel_0", "0x108") ∈ on))
      (.load (oneKernelConfig (enabledKernel ["0x100", "0x108"] (by decide))))
      (reduceBisect (scriptedReduction (enabledKernel ["0x100", "0x108"] (by decide))
        fun on => decide (("kernel_0", "0x108") ∈ on)) 1) :=
  (reduceBisect_oneMinimal_iff (scriptedReduction (enabledKernel ["0x100", "0x108"] (by decide))
    fun on => decide (("kernel_0", "0x108") ∈ on)) _ 1 (scriptedReduction_decides _ _)
    (by decide)).mpr (.inl (by decide))

/-- One enabled point and a race that always occurs: the reducer returns the
point, although nothing at all need be enabled. -/
theorem reduceBisect_one_point_not_minimal :
    ¬ ∀ (config : ReduceConfig) (oracle : Finset PointKey → Bool), config.Decides oracle →
      oracle config.delayConfig.enabledKeys = true →
      OneMinimal oracle (.load config.delayConfig) (reduceBisect config 1) := by
  intro h
  have hd := scriptedReduction_decides (enabledKernel ["0x100"] (by decide)) fun _ => true
  obtain ⟨r, hr, -, -, hmin⟩ := h _ _ hd rfl
  obtain ⟨r', m, hr', hsteps, -⟩ := reduceBisect_returns 1 hd rfl (by decide)
  rw [hr, Except.ok.injEq] at hr'
  subst hr'
  obtain ⟨p, hp⟩ := List.exists_mem_of_ne_nil _ ((narrows_keeps hsteps le_rfl rfl).2.2.2 (by decide))
  simpa using hmin p hp

end CuTracer.Reduce
