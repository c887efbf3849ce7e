import CuTracer.Reduce.Essential
import CuTracer.Reduce.Saved

/-! A document is read as a config with its points, and the linear reducer on documents returns what
the reducer on configs does. The memory of the one and the config of the other have the same points
enabled after every iteration, which is all that a test depends on. -/

namespace CuTracer.Reduce.Document

open CuTracer.Json (field fieldsOf wholeNumber)

/-! ### The config of a document -/

def text : Json → String
  | .str s => s
  | _ => ""

def readPoint (v : Json) : InstrumentationPoint where
  sass := (field (fieldsOf v) "sass").map text
  delay := (field (fieldsOf v) "delay").bind wholeNumber
  on := (field (fieldsOf v) "on").map Json.truthy

/-- The fields of an object, each with its value read. -/
def readFields {α : Type} (f : Json → α) (fields : List (String × Json)) : Dict String α :=
  (fields.map fun e => (e.1, f e.2)).foldl (fun d e => d.insert e.1 e.2) Dict.empty

def readKernel (v : Json) : KernelDelayConfig where
  kernelName := (field (fieldsOf v) "kernel_name").map text
  instrumentationPoints := readFields readPoint (fieldsAt "instrumentation_points" v)

def readConfig (doc : Json) : DelayConfig := ⟨readFields readKernel (fieldsAt "kernels" doc)⟩

def readDelayPoint (p : DelayPoint) : Reduce.DelayPoint where
  kernelKey := p.kernelKey
  kernelName := text p.kernelName
  pcOffset := p.pcOffset
  sass := text p.sass
  delayNs := (wholeNumber p.delayNs).getD 0
  enabled := p.enabled.truthy

theorem entries_readFields {α : Type} (f : Json → α) {fields : List (String × Json)}
    (hnodup : (fields.map Prod.fst).Nodup) : (readFields f fields).entries = fields.map fun e => (e.1, f e.2) :=
  Dict.entries_ofEntries (by rwa [List.map_map])

theorem parsePoint_read (kernelKey : String) (kernel : Json) (q : String × Json) :
    Reduce.parsePoint kernelKey ((readKernel kernel).kernelName.getD kernelKey) (q.1, readPoint q.2) =
      readDelayPoint (pointOf kernelKey kernel q) := by
  simp only [Reduce.parsePoint, readPoint, readKernel, readDelayPoint, pointOf, Reduce.DelayPoint.mk.injEq, true_and]
  refine ⟨?_, ?_, ?_, ?_⟩
  · cases field (fieldsOf kernel) "kernel_name" <;> rfl
  · cases field (fieldsOf q.2) "sass" <;> rfl
  · cases field (fieldsOf q.2) "delay" <;> rfl
  · cases field (fieldsOf q.2) "on" <;> rfl

variable {doc : Json}

/-- The points of the config are those of the document. -/
theorem parseDelayPoints_read (hdistinct : Json.Distinct doc) :
    Reduce.parseDelayPoints (readConfig doc) = (pointsOf doc).map readDelayPoint := by
  have hkernels := distinct_at hdistinct "kernels"
  have hentries : (readConfig doc).kernels.entries = (fieldsAt "kernels" doc).map fun e => (e.1, readKernel e.2) :=
    entries_readFields _ (distinct_nodup hkernels)
  rw [Reduce.parseDelayPoints, hentries, List.flatMap_map, pointsOf, List.map_flatMap]
  apply List.flatMap_congr
  intro e he
  have hpoints : (readKernel e.2).instrumentationPoints.entries =
      (fieldsAt "instrumentation_points" e.2).map fun q => (q.1, readPoint q.2) :=
    entries_readFields _ (distinct_nodup (distinct_at (distinct_mem hkernels he) "instrumentation_points"))
  rw [Reduce.parseKernel, hpoints, kernelPoints, List.map_map, List.map_map]
  exact List.map_congr_left fun q _ => parsePoint_read e.1 e.2 q

def onKeys (doc : Json) (on : Key → Bool) : Finset Key := (((pointsOf doc).map DelayPoint.key).filter on).toFinset

theorem onKeys_disabled (on : Key → Bool) (key : Key) :
    onKeys doc (Function.update on key false) = (onKeys doc on).erase key := by
  ext k
  by_cases hkey : k = key <;> simp [onKeys, hkey]

theorem enabledPoints_read (hdistinct : Json.Distinct doc) :
    (Reduce.DelayConfigMutator.load (readConfig doc)).enabledPoints.map Reduce.DelayPoint.key =
      ((pointsOf doc).map DelayPoint.key).filter (enabledIn doc) := by
  have hsame : (pointsOf doc).filter (enabledIn doc ∘ DelayPoint.key) = (pointsOf doc).filter fun p => p.enabled.truthy :=
    List.filter_congr fun p hp => enabledIn_eq hdistinct hp
  rw [Reduce.DelayConfigMutator.enabledPoints,
    show (Reduce.DelayConfigMutator.load (readConfig doc)).delayPoints = _ from parseDelayPoints_read hdistinct,
    List.filter_map, List.map_map, List.filter_map, hsame]
  rfl

/-! ### The linear reducers -/

/-- An error of the reducer on configs, as the one on documents raises it. -/
def raised : ReduceError → PyError
  | .valueError message => .valueError message
  | .configDoesNotTrigger _ => .configDoesNotTrigger
  | .replayExecution _ _ => .replayFailed

section

variable {library : JsonLibrary} {test : ℕ → String → Except PyError Bool} {config : ReduceConfig}
  {oracle : Finset PointKey → Bool} {mem : Memory} {m : DelayConfigMutator} {on : Key → Bool}
  (hdoc : delayConfigSchema doc) (hdistinct : Json.Distinct doc) (hd : config.Decides oracle)
  (htest : ∀ iteration on, test iteration (library.dump (enableOnly on doc)) = .ok (oracle (onKeys doc on)))
include hdoc hdistinct htest

theorem testPointEssentiality_runs (h : Mirrors doc mem m on) (hplaced : Placed 0 0 mem m) {r : ℕ}
    (hr : r ∈ m.delayPoints) (iteration : ℕ) :
    ∃ mem', testPointEssentiality library (test iteration) r m mem =
      .ok (!oracle ((onKeys doc on).erase (mem.points r).key), mem') := by
  obtain ⟨m₁, mem₁, hclone, hmirrors, hfresh, hsame, -⟩ := clone_ok hdoc h
  obtain ⟨mem₂, hdisable, hresult⟩ := disablePoint_ok hdoc hdistinct hmirrors hfresh (mem₁.points r).key
  have hpoint : mem₁.points r = mem.points r := hsame.points r (hplaced.points r hr).2
  refine ⟨mem₂, ?_⟩
  simp only [testPointEssentiality, hclone, ok_bind, hdisable, DelayConfigMutator.save, hresult.mirrors.config, htest]
  rw [onKeys_disabled, hpoint]

include hd

/-- The loops keep points with the same keys. -/
theorem reduceLoop_read (runs iteration : ℕ) (essential : List ℕ) (essentialPoints : List Reduce.DelayPoint)
    {keyOf : ℕ → Key} {rest : List ℕ} {points : List Reduce.DelayPoint} {typed : Reduce.DelayConfigMutator}
    (hrest : ∀ r ∈ rest, r ∈ m.delayPoints) (h : Mirrors doc mem m on) (hplaced : Placed 0 0 mem m)
    (hkeys : ∀ r ∈ m.delayPoints, (mem.points r).key = keyOf r)
    (hpoints : points.map Reduce.DelayPoint.key = rest.map keyOf) (hon : keySet typed.enabledPoints = onKeys doc on) :
    ∃ kept mem' typed' keptPoints on',
      reduceLoop library test m iteration rest essential mem = .ok (essential ++ kept, mem') ∧
        Reduce.reduceLoop config runs points typed essentialPoints = .ok (typed', essentialPoints ++ keptPoints) ∧
        keptPoints.map Reduce.DelayPoint.key = kept.map keyOf ∧ kept ⊆ rest ∧
        Mirrors doc mem' m on' ∧ keySet typed'.enabledPoints = onKeys doc on' := by
  induction rest generalizing mem on iteration points essential essentialPoints typed with
  | nil =>
    obtain rfl := List.map_eq_nil_iff.mp hpoints
    exact ⟨[], mem, typed, [], on, by rw [List.append_nil]; rfl, by rw [List.append_nil]; rfl, rfl,
      List.Subset.refl _, h, hon⟩
  | cons r rest ih =>
    obtain ⟨point, points, rfl, hkey, hpoints⟩ := List.map_eq_cons_iff.mp hpoints
    have hr := hrest r List.mem_cons_self
    have hrest' : ∀ r' ∈ rest, r' ∈ m.delayPoints := fun r' hr' => hrest r' (List.mem_cons_of_mem r hr')
    obtain ⟨mem₁, hrun⟩ := testPointEssentiality_runs hdoc hdistinct htest h hplaced hr iteration
    obtain ⟨hmirrors, hplaced'⟩ := testPointEssentiality_ok hdoc hdistinct h hplaced hrun
    have hkeys' : ∀ {mem'' on''}, Mirrors doc mem'' m on'' → ∀ r ∈ m.delayPoints, (mem''.points r).key = keyOf r :=
      fun h' r hr => (h.key_eq h' hr).trans (hkeys r hr)
    rw [hkeys r hr] at hrun
    rw [reduceLoop, Reduce.reduceLoop, hrun, testPointEssentiality_decided hd, hon, hkey, ok_bind]
    cases oracle ((onKeys doc on).erase (keyOf r)) with
    | true =>
      obtain ⟨mem₂, hdisable, hresult⟩ := disablePoint_ok hdoc hdistinct hmirrors hplaced' (mem₁.points r).key
      have hon' : keySet (Reduce.disablePoint typed point).enabledPoints =
          onKeys doc (Function.update on (mem₁.points r).key false) := by
        rw [keySet_disablePoint, hon, hkey, onKeys_disabled, hkeys' hmirrors r hr]
      obtain ⟨kept, mem', typed', keptPoints, on', hloop, htyped, hkept, hsub, hfinal⟩ :=
        ih _ essential essentialPoints hrest' hresult.mirrors (hplaced'.result hresult) (hkeys' hresult.mirrors) hpoints hon'
      refine ⟨kept, mem', typed', keptPoints, on', ?_, htyped, hkept, fun _ hk => List.mem_cons_of_mem r (hsub hk), hfinal⟩
      simpa [hdisable] using hloop
    | false =>
      obtain ⟨kept, mem', typed', keptPoints, on', hloop, htyped, hkept, hsub, hfinal⟩ :=
        ih _ (essential ++ [r]) (essentialPoints ++ [point]) hrest' hmirrors hplaced' (hkeys' hmirrors) hpoints hon
      refine ⟨r :: kept, mem', typed', point :: keptPoints, on', hloop.trans ?_, htyped.trans ?_, ?_,
        List.cons_subset_cons r hsub, hfinal⟩
      · rw [List.append_assoc]
        rfl
      · rw [List.append_assoc]
        rfl
      · rw [List.map_cons, List.map_cons, hkey, hkept]

/-- The linear reducer on the file of a document raises and returns what the reducer on its config does, and
the configs that are saved enable the same points. -/
theorem reduceDelayPoints_read (hdelay : config.delayConfig = readConfig doc) (runs : ℕ) {configPath file : String}
    (hfile : library.load file = some doc) (validate : Bool) (mem : Memory) :
    match Reduce.reduceDelayPoints config runs with
    | .error e =>
      reduceDelayPoints library test configPath file validate config.outputPath mem = .error (raised e)
    | .ok r => ∃ r' m mem' on,
      reduceDelayPoints library test configPath file validate config.outputPath mem = .ok (r', m, mem') ∧
        (r'.totalPoints, r'.iterations) = (r.totalPoints, r.iterations) ∧
        r'.essentialPoints.map (fun p => (mem'.points p).key) = r.essentialPoints.map Reduce.DelayPoint.key ∧
        r'.minimalConfig = config.outputPath.map (fun path => (path, library.dump (enableOnly on doc))) ∧
        ∀ minimal ∈ r.minimalConfig, minimal.2.enabledKeys = onKeys doc on := by
  set typed := Reduce.DelayConfigMutator.load (readConfig doc) with htyped
  obtain ⟨m, mem₁, hnew, hmirrors, hplaced, -⟩ := newMutator_ok hdoc configPath (enabledIn doc) mem
  rw [enableOnly_self hdoc hdistinct fun p hp => enabled_eq hdoc hdistinct hp] at hnew
  have hinit : DelayConfigMutator.init library configPath file validate mem = .ok (m, mem₁) := by
    rw [DelayConfigMutator.init, hfile]
    simpa [hdoc] using hnew
  have hplaced' : Placed 0 0 mem₁ m :=
    ⟨⟨Nat.zero_le _, hplaced.config.2⟩, fun r hr => ⟨Nat.zero_le _, (hplaced.points r hr).2⟩, hplaced.nodup⟩
  have henabled : typed.enabledPoints.map Reduce.DelayPoint.key =
      (m.enabledPoints mem₁).map fun r => (mem₁.points r).key :=
    (enabledPoints_read hdistinct).trans hmirrors.enabled_keys.symm
  have hlength := congrArg List.length henabled
  rw [List.length_map, List.length_map] at hlength
  have hon : keySet typed.enabledPoints = onKeys doc (enabledIn doc) :=
    congrArg List.toFinset (enabledPoints_read hdistinct)
  have hcandidate : config.candidateIsInteresting typed.save = .ok (oracle (onKeys doc (enabledIn doc))) := by
    rw [hd, DelayConfigMutator.enabledKeys_save, hon]
  have hfirst : test 0 (m.save library mem₁) = .ok (oracle (onKeys doc (enabledIn doc))) := by
    rw [DelayConfigMutator.save, hmirrors.config, htest]
  obtain ⟨kept, mem', typed', keptPoints, on', hloop, hloop', hkept, hsub, hfinal, hon'⟩ :=
    reduceLoop_read hdoc hdistinct hd htest runs 1 [] [] (fun r (hr : r ∈ m.enabledPoints mem₁) =>
      List.mem_of_mem_filter hr) hmirrors hplaced' (fun _ _ => rfl) henabled hon
  simp only [Reduce.reduceDelayPoints, hdelay, ← htyped, ReduceConfig.validateInitialConfig, reduceDelayPoints,
    hinit, ok_bind, hcandidate, hfirst]
  by_cases hnone : m.enabledPoints mem₁ = []
  · have hnone' : typed.enabledPoints = [] := List.length_eq_zero_iff.mp (by rw [hlength, hnone]; rfl)
    simp [hnone, hnone', raised]
  · have hnone' : typed.enabledPoints ≠ [] := fun h => hnone (List.length_eq_zero_iff.mp (by rw [← hlength, h]; rfl))
    rw [if_neg hnone, if_neg hnone']
    cases oracle (onKeys doc (enabledIn doc)) with
    | false => rfl
    | true =>
      simp only [hloop, hloop', ok_bind, List.nil_append]
      refine ⟨_, _, _, on', rfl, by rw [hlength], ?_, by rw [DelayConfigMutator.save, hfinal.config], ?_⟩
      · rw [hkept]
        exact List.map_congr_left fun r hr => hmirrors.key_eq hfinal (List.mem_of_mem_filter (hsub hr))
      · intro minimal hminimal
        obtain ⟨path, -, rfl⟩ := Option.map_eq_some_iff.mp hminimal
        rw [DelayConfigMutator.enabledKeys_save, hon']

end

end CuTracer.Reduce.Document
