import CuTracer.Library.JsonReader
import CuTracer.Reduce.Flags

/-! What the reducers save. A mutator mirrors a document with some of its points enabled: its own
document is that one, and its point objects are those read from it. Every operation keeps this and
changes no other mutator, so a saved config is the first document with the enabled points chosen. -/

namespace CuTracer.Reduce.Document

/-! ### Keys -/

section

variable {doc : Json}

theorem kernelPoints_keys (e : String × Json) :
    (kernelPoints e).map DelayPoint.key = (fieldsAt "instrumentation_points" e.2).map fun q => (e.1, q.1) := by
  rw [kernelPoints, List.map_map]
  rfl

theorem pointsOf_keys_nodup (hdistinct : Json.Distinct doc) : ((pointsOf doc).map DelayPoint.key).Nodup := by
  have hkernels := distinct_at hdistinct "kernels"
  rw [pointsOf, List.map_flatMap, List.nodup_flatMap]
  constructor
  · intro e he
    have hpoints := distinct_nodup (distinct_at (distinct_mem hkernels he) "instrumentation_points")
    rw [kernelPoints_keys, show (fun q : String × Json => (e.1, q.1)) = Prod.mk e.1 ∘ Prod.fst from rfl, ← List.map_map]
    exact hpoints.map fun a b h => (Prod.mk.inj h).2
  · have hnodup := distinct_nodup hkernels
    rw [List.nodup_iff_pairwise_ne, List.pairwise_map] at hnodup
    apply hnodup.imp
    intro a b hne k ha hb
    simp only [kernelPoints_keys, List.mem_map] at ha hb
    obtain ⟨x, -, rfl⟩ := ha
    obtain ⟨y, -, hy⟩ := hb
    exact hne (Prod.mk.inj hy).1.symm

/-- Only the flags of a document's own points matter. -/
theorem enableOnly_congr (hdistinct : Json.Distinct doc) {on on' : Key → Bool}
    (h : ∀ p ∈ pointsOf doc, on p.key = on' p.key) : enableOnly on doc = enableOnly on' doc := by
  apply mapPoints_congr hdistinct
  intro e he q hq
  rw [show on (e.1, q.1) = on' (e.1, q.1) from h _ (mem_pointsOf.mpr ⟨e, he, q, hq, rfl⟩)]

end

/-! ### What a mutator mirrors -/

/-- Documents and points below two references are the same in both memories. -/
structure Same (configs points : ℕ) (mem mem' : Memory) : Prop where
  configs : ∀ c < configs, mem'.configs c = mem.configs c
  points : ∀ r < points, mem'.points r = mem.points r

theorem Same.refl (configs points : ℕ) (mem : Memory) : Same configs points mem mem :=
  ⟨fun _ _ => rfl, fun _ _ => rfl⟩

theorem Same.trans {configs points : ℕ} {mem₁ mem₂ mem₃ : Memory} (h : Same configs points mem₁ mem₂)
    (h' : Same configs points mem₂ mem₃) : Same configs points mem₁ mem₃ :=
  ⟨fun c hc => (h'.configs c hc).trans (h.configs c hc), fun r hr => (h'.points r hr).trans (h.points r hr)⟩

/-- The mutator's references are above two others and in use. -/
structure Placed (configs points : ℕ) (mem : Memory) (m : DelayConfigMutator) : Prop where
  config : configs ≤ m.config ∧ m.config < mem.nextConfig
  points : ∀ r ∈ m.delayPoints, points ≤ r ∧ r < mem.nextPoint
  nodup : m.delayPoints.Nodup

/-- The document and the points of a mutator are those of a document with some points enabled. -/
structure Mirrors (doc : Json) (mem : Memory) (m : DelayConfigMutator) (on : Key → Bool) : Prop where
  config : mem.configs m.config = enableOnly on doc
  points : m.delayPoints.map mem.points = (pointsOf doc).map (withEnabled on)

section Operations

variable {doc : Json} {configs points : ℕ} {mem mem' : Memory} {m : DelayConfigMutator} {on on' : Key → Bool} {r : ℕ}

theorem Mirrors.keys (h : Mirrors doc mem m on) :
    m.delayPoints.map (fun r => (mem.points r).key) = (pointsOf doc).map DelayPoint.key := by
  have hmap := congrArg (List.map DelayPoint.key) h.points
  rw [List.map_map, List.map_map] at hmap
  exact hmap

theorem Mirrors.key_eq (h : Mirrors doc mem m on) (h' : Mirrors doc mem' m on') (hr : r ∈ m.delayPoints) :
    (mem'.points r).key = (mem.points r).key :=
  List.map_inj_left.mp (h'.keys.trans h.keys.symm) r hr

theorem Mirrors.point (h : Mirrors doc mem m on) (hr : r ∈ m.delayPoints) :
    ∃ p ∈ pointsOf doc, mem.points r = withEnabled on p := by
  have hmem : mem.points r ∈ m.delayPoints.map mem.points := List.mem_map_of_mem hr
  rw [h.points] at hmem
  obtain ⟨p, hp, heq⟩ := List.mem_map.mp hmem
  exact ⟨p, hp, heq.symm⟩

theorem Mirrors.enabled (h : Mirrors doc mem m on) (hr : r ∈ m.delayPoints) :
    (mem.points r).enabled.truthy = on (mem.points r).key := by
  obtain ⟨p, -, hp⟩ := h.point hr
  rw [hp]
  rfl

/-- The points with other flags. -/
theorem Mirrors.map_withEnabled (h : Mirrors doc mem m on) (on' : Key → Bool) :
    m.delayPoints.map (fun r => withEnabled on' (mem.points r)) = (pointsOf doc).map (withEnabled on') := by
  have hmap := congrArg (List.map (withEnabled on')) h.points
  rw [List.map_map, List.map_map] at hmap
  exact hmap

theorem Mirrors.keys_nodup (h : Mirrors doc mem m on) (hdistinct : Json.Distinct doc) :
    (m.delayPoints.map fun r => (mem.points r).key).Nodup := by
  rw [h.keys]
  exact pointsOf_keys_nodup hdistinct

theorem Mirrors.enabled_keys (h : Mirrors doc mem m on) :
    (m.enabledPoints mem).map (fun r => (mem.points r).key) = ((pointsOf doc).map DelayPoint.key).filter on := by
  rw [DelayConfigMutator.enabledPoints, List.filter_congr fun r hr => h.enabled hr, ← h.keys, List.filter_map]
  rfl

theorem Mirrors.inj (h : Mirrors doc mem m on) (hdistinct : Json.Distinct doc) {r' : ℕ} (hr : r ∈ m.delayPoints)
    (hr' : r' ∈ m.delayPoints) (hkey : (mem.points r).key = (mem.points r').key) : r = r' :=
  List.inj_on_of_nodup_map (h.keys_nodup hdistinct) hr hr' hkey

theorem Mirrors.congr (h : Mirrors doc mem m on) (hdistinct : Json.Distinct doc)
    (hon : ∀ p ∈ pointsOf doc, on p.key = on' p.key) : Mirrors doc mem m on' where
  config := h.config.trans (enableOnly_congr hdistinct hon)
  points := by
    rw [h.points]
    apply List.map_congr_left
    intro p hp
    rw [withEnabled, withEnabled, hon p hp]

/-- A mutator below the references a memory keeps is not changed. -/
theorem Mirrors.same (h : Mirrors doc mem m on) (hconfig : m.config < configs)
    (hpoints : ∀ r ∈ m.delayPoints, r < points) (hsame : Same configs points mem mem') : Mirrors doc mem' m on where
  config := (hsame.configs _ hconfig).trans h.config
  points := by
    rw [← h.points]
    apply List.map_congr_left
    exact fun r hr => hsame.points r (hpoints r hr)

structure Result (doc : Json) (configs points : ℕ) (mem : Memory) (m : DelayConfigMutator) (on : Key → Bool)
    (mem' : Memory) : Prop where
  mirrors : Mirrors doc mem' m on
  same : Same configs points mem mem'
  nextConfig : mem'.nextConfig = mem.nextConfig
  nextPoint : mem'.nextPoint = mem.nextPoint

theorem Placed.result (h : Placed configs points mem m) (hresult : Result doc configs points mem m on mem') :
    Placed configs points mem' m where
  config := by rw [hresult.nextConfig]; exact h.config
  points := by rw [hresult.nextPoint]; exact h.points
  nodup := h.nodup

variable (hdoc : delayConfigSchema doc) (hdistinct : Json.Distinct doc)
include hdoc hdistinct

/-- `set_point_enabled` writes both copies. -/
theorem setPointEnabled_eq (h : Mirrors doc mem m on) (hr : r ∈ m.delayPoints) (enabled : Bool) :
    m.setPointEnabled r enabled mem =
      .ok ((mem.setPoint r { mem.points r with enabled := .bool enabled }).setConfig m.config
        (enableOnly (Function.update on (mem.points r).key enabled) doc)) := by
  obtain ⟨p, hp, hpoint⟩ := h.point hr
  have hkey : (mem.points r).key = p.key := by rw [hpoint, withEnabled_key]
  have hset := setOn_enableOnly hdoc hdistinct on hp enabled
  rw [← hkey, ← h.config] at hset
  rw [DelayConfigMutator.setPointEnabled]
  simp only [Memory.setPoint, Function.update_self]
  rw [show ({ mem.points r with enabled := .bool enabled } : DelayPoint).key = (mem.points r).key from rfl, hset]
  rfl

theorem setPointEnabled_ok (h : Mirrors doc mem m on) (hplaced : Placed configs points mem m)
    (hr : r ∈ m.delayPoints) (enabled : Bool) :
    ∃ mem', m.setPointEnabled r enabled mem = .ok mem' ∧
      Result doc configs points mem m (Function.update on (mem.points r).key enabled) mem' := by
  refine ⟨_, setPointEnabled_eq hdoc hdistinct h hr enabled, ⟨?_, ?_⟩, ⟨?_, ?_⟩, rfl, rfl⟩
  · exact Function.update_self ..
  · rw [← h.map_withEnabled]
    apply List.map_congr_left
    intro r' hr'
    simp only [Memory.setConfig, Memory.setPoint]
    by_cases hsame : r' = r
    · rw [hsame, Function.update_self, withEnabled, Function.update_self]
    · have hne : (mem.points r').key ≠ (mem.points r).key := fun heq => hsame (h.inj hdistinct hr' hr heq)
      obtain ⟨p', -, hp'⟩ := h.point hr'
      rw [Function.update_of_ne hsame, withEnabled, Function.update_of_ne hne, hp']
      rfl
  · intro c hc
    have hne : c ≠ m.config := by
      have := hplaced.config.1
      omega
    exact Function.update_of_ne hne ..
  · intro r' hr'
    have hne : r' ≠ r := by
      have := (hplaced.points r hr).1
      omega
    exact Function.update_of_ne hne ..

/-- A loop over some of the points that sets those whose keys are selected. -/
theorem foldlM_setPointEnabled (sel : Key → Bool) (enabled : Bool) {rs : List ℕ} (hrs : ∀ r ∈ rs, r ∈ m.delayPoints)
    (h : Mirrors doc mem m on) (hplaced : Placed configs points mem m) :
    ∃ mem', rs.foldlM (fun mem r => if sel (mem.points r).key then m.setPointEnabled r enabled mem else .ok mem) mem =
        .ok mem' ∧
      Result doc configs points mem m
        (fun key => if key ∈ rs.map (fun r => (mem.points r).key) ∧ sel key then enabled else on key) mem' := by
  induction rs generalizing mem on with
  | nil =>
    refine ⟨mem, rfl, ?_, .refl _ _ _, rfl, rfl⟩
    simpa using h
  | cons r rs ih =>
    have hr := hrs r List.mem_cons_self
    have hstep : ∃ mem', (if sel (mem.points r).key then m.setPointEnabled r enabled mem else .ok mem) = .ok mem' ∧
        Result doc configs points mem m
          (fun key => if key = (mem.points r).key ∧ sel key then enabled else on key) mem' := by
      by_cases hsel : sel (mem.points r).key
      · obtain ⟨mem', hset, hresult⟩ := setPointEnabled_ok hdoc hdistinct h hplaced hr enabled
        refine ⟨mem', by rw [if_pos hsel, hset], hresult.mirrors.congr hdistinct fun p _ => ?_, hresult.same,
          hresult.nextConfig, hresult.nextPoint⟩
        by_cases hkey : p.key = (mem.points r).key
        · rw [hkey, Function.update_self, if_pos ⟨rfl, hsel⟩]
        · rw [Function.update_of_ne hkey, if_neg fun hboth => hkey hboth.1]
      · refine ⟨mem, if_neg hsel, h.congr hdistinct fun p _ => ?_, .refl _ _ _, rfl, rfl⟩
        by_cases hkey : p.key = (mem.points r).key
        · simp [hkey, hsel]
        · simp [hkey]
    obtain ⟨mem₁, hstep, hresult⟩ := hstep
    obtain ⟨mem₂, hrest, hresult'⟩ := ih (fun r' hr' => hrs r' (List.mem_cons_of_mem r hr')) hresult.mirrors
      (hplaced.result hresult)
    refine ⟨mem₂, by rw [List.foldlM_cons, hstep]; exact hrest, hresult'.mirrors.congr hdistinct fun p _ => ?_,
      hresult.same.trans hresult'.same, hresult'.nextConfig.trans hresult.nextConfig,
      hresult'.nextPoint.trans hresult.nextPoint⟩
    have hkeys : rs.map (fun r => (mem₁.points r).key) = rs.map fun r => (mem.points r).key :=
      List.map_congr_left fun r' hr' => h.key_eq hresult.mirrors (hrs r' (List.mem_cons_of_mem r hr'))
    simp only [hkeys, List.map_cons, List.mem_cons]
    cases sel p.key with
    | false => simp
    | true => by_cases hkey : p.key = (mem.points r).key <;> simp [hkey]

/-- `set_all_enabled`. -/
theorem setAllEnabled_ok (h : Mirrors doc mem m on) (hplaced : Placed configs points mem m) (enabled : Bool) :
    ∃ mem', m.setAllEnabled enabled mem = .ok mem' ∧ Result doc configs points mem m (fun _ => enabled) mem' := by
  obtain ⟨mem', hloop, hresult⟩ := foldlM_setPointEnabled hdoc hdistinct (fun _ => true) enabled (fun _ hr => hr) h hplaced
  refine ⟨mem', ?_, hresult.mirrors.congr hdistinct fun p hp => ?_, hresult.same, hresult.nextConfig, hresult.nextPoint⟩
  · simpa [DelayConfigMutator.setAllEnabled] using hloop
  · have hmem : p.key ∈ m.delayPoints.map fun r => (mem.points r).key := by
      rw [h.keys]
      exact List.mem_map_of_mem hp
    simp only [hmem, and_self, if_true]

/-- Disabling the enabled point with a key; a point that is not enabled stays so. -/
theorem disablePoint_ok (h : Mirrors doc mem m on) (hplaced : Placed configs points mem m) (key : Key) :
    ∃ mem', disablePoint m key mem = .ok mem' ∧
      Result doc configs points mem m (Function.update on key false) mem' := by
  rw [disablePoint]
  cases hfind : findPointInMutator mem m key with
  | some r =>
    have hr : r ∈ m.delayPoints := List.mem_of_mem_filter (List.mem_of_find?_eq_some hfind)
    have hkey := List.find?_some hfind
    rw [decide_eq_true_eq] at hkey
    have hset := setPointEnabled_ok hdoc hdistinct h hplaced hr false
    rwa [hkey] at hset
  | none =>
    refine ⟨mem, rfl, h.congr hdistinct fun p hp => ?_, .refl _ _ _, rfl, rfl⟩
    by_cases hkey : p.key = key
    · have hmem : p.key ∈ m.delayPoints.map fun r => (mem.points r).key := by
        rw [h.keys]
        exact List.mem_map_of_mem hp
      obtain ⟨r, hr, hrkey⟩ := List.mem_map.mp hmem
      have hoff : ¬ (mem.points r).enabled.truthy := fun henabled => by
        have hnone := List.find?_eq_none.mp hfind r (List.mem_filter.mpr ⟨hr, henabled⟩)
        exact hnone (decide_eq_true (hrkey.trans hkey))
      rw [h.enabled hr, hrkey, Bool.not_eq_true] at hoff
      rw [hoff, hkey, Function.update_self]
    · rw [Function.update_of_ne hkey]

omit hdistinct in
/-- A document with some points enabled is parsed to a new mutator. -/
theorem newMutator_ok (configPath : String) (on : Key → Bool) (mem : Memory) :
    ∃ m mem', newMutator configPath (enableOnly on doc) mem = .ok (m, mem') ∧ Mirrors doc mem' m on ∧
      Placed mem.nextConfig mem.nextPoint mem' m ∧ Same mem.nextConfig mem.nextPoint mem mem' ∧
      mem.nextConfig ≤ mem'.nextConfig ∧ mem.nextPoint ≤ mem'.nextPoint := by
  refine ⟨_, _, by rw [newMutator, parseDelayPoints_ok (enableOnly_schema on hdoc), ok_bind], ⟨?_, ?_⟩, ⟨?_, ?_, ?_⟩,
    ⟨?_, ?_⟩, ?_, ?_⟩
  · exact Function.update_self ..
  · rw [← pointsOf_enableOnly on hdoc]
    apply List.ext_getElem
    · simp
    · intro i hi hi'
      simp [Memory.allocate, hi']
  · simp [Memory.allocate]
  · intro r hr
    simp only [List.mem_range'_1] at hr
    simp only [Memory.allocate]
    exact hr
  · exact List.nodup_range'
  · intro c hc
    have hne : c ≠ mem.nextConfig := by omega
    exact Function.update_of_ne hne ..
  · intro r hr
    exact if_pos hr
  · simp [Memory.allocate]
  · simp [Memory.allocate]

omit hdistinct in
/-- A copy of its own for a mutator that is in use. -/
theorem clone_ok (h : Mirrors doc mem m on) :
    ∃ m' mem', m.clone mem = .ok (m', mem') ∧ Mirrors doc mem' m' on ∧
      Placed mem.nextConfig mem.nextPoint mem' m' ∧ Same mem.nextConfig mem.nextPoint mem mem' ∧
      mem.nextConfig ≤ mem'.nextConfig ∧ mem.nextPoint ≤ mem'.nextPoint := by
  rw [DelayConfigMutator.clone, h.config]
  exact newMutator_ok hdoc m.configPath on mem

/-- `_make_config_with_points` gives a mutator with the points enabled, and changes no other. -/
theorem makeConfigWithPoints_ok (h : Mirrors doc mem m on) (hplaced : Placed configs points mem m) {ps : List ℕ}
    (hps : ∀ r ∈ ps, r ∈ m.delayPoints) :
    ∃ m' mem', makeConfigWithPoints m ps mem = .ok (m', mem') ∧
      Mirrors doc mem' m' (fun key => decide (key ∈ ps.map fun r => (mem.points r).key)) ∧
      Same mem.nextConfig mem.nextPoint mem mem' := by
  obtain ⟨m', mem₁, hclone, hmirrors, hfresh, hsame, -, -⟩ := clone_ok hdoc h
  obtain ⟨mem₂, hset, hresult⟩ := setAllEnabled_ok hdoc hdistinct hmirrors hfresh false
  obtain ⟨mem₃, hloop, hresult'⟩ := foldlM_setPointEnabled hdoc hdistinct
    (fun key => decide (key ∈ ps.map fun r => (mem₂.points r).key)) true (fun _ hr => hr) hresult.mirrors
    (hfresh.result hresult)
  have hkeys : ps.map (fun r => (mem₂.points r).key) = ps.map fun r => (mem.points r).key :=
    List.map_congr_left fun r hr => by
      rw [(hsame.trans hresult.same).points r (hplaced.points r (hps r hr)).2]
  refine ⟨m', mem₃, ?_, hresult'.mirrors.congr hdistinct fun p hp => ?_, (hsame.trans hresult.same).trans hresult'.same⟩
  · simp only [makeConfigWithPoints, hclone, ok_bind, hset, List.contains_eq_mem, hloop]
  · have hmem : p.key ∈ m'.delayPoints.map fun r => (mem₂.points r).key := by
      rw [hresult.mirrors.keys]
      exact List.mem_map_of_mem hp
    simp only [hmem, true_and, decide_eq_true_eq, hkeys]
    by_cases hkey : p.key ∈ ps.map fun r => (mem.points r).key
    · rw [if_pos hkey, decide_eq_true hkey]
    · rw [if_neg hkey, decide_eq_false hkey]

/-! ### The linear reducer -/

/-- A test of one point leaves the mutator as it was. -/
theorem testPointEssentiality_ok (h : Mirrors doc mem m on) (hplaced : Placed 0 0 mem m) {library : JsonLibrary}
    {test : String → Except PyError Bool} {essential : Bool}
    (htest : testPointEssentiality library test r m mem = .ok (essential, mem')) :
    Mirrors doc mem' m on ∧ Placed 0 0 mem' m := by
  obtain ⟨m₁, mem₁, hclone, hmirrors, hfresh, hsame, hconfigs, hpoints⟩ := clone_ok hdoc h
  obtain ⟨mem₂, hdisable, hresult⟩ := disablePoint_ok hdoc hdistinct hmirrors hfresh (mem₁.points r).key
  simp only [testPointEssentiality, hclone, ok_bind, hdisable] at htest
  obtain ⟨occurs, -, hdone⟩ := bind_ok htest
  obtain ⟨-, rfl⟩ := Prod.mk.inj (Except.ok.inj hdone)
  refine ⟨h.same hplaced.config.2 (fun r hr => (hplaced.points r hr).2) (hsame.trans hresult.same), ⟨?_, ?_, hplaced.nodup⟩⟩
  · have := hplaced.config.2
    rw [hresult.nextConfig]
    omega
  · intro r hr
    have := (hplaced.points r hr).2
    rw [hresult.nextPoint]
    omega

/-- The points that are kept are some of those that are tested, and the others are disabled. -/
theorem reduceLoop_ok {library : JsonLibrary} {test : ℕ → String → Except PyError Bool} {iteration : ℕ}
    {rest essential essential' : List ℕ} (hrest : ∀ r ∈ rest, r ∈ m.delayPoints) (hnodup : rest.Nodup)
    (h : Mirrors doc mem m on) (hplaced : Placed 0 0 mem m)
    (hloop : reduceLoop library test m iteration rest essential mem = .ok (essential', mem')) :
    ∃ kept, essential' = essential ++ kept ∧ kept.Sublist rest ∧ Placed 0 0 mem' m ∧ Mirrors doc mem' m fun key =>
      on key && (decide (key ∉ rest.map fun r => (mem.points r).key) || decide (key ∈ kept.map fun r => (mem.points r).key)) := by
  induction rest generalizing iteration essential mem on with
  | nil =>
    cases hloop
    refine ⟨[], (List.append_nil _).symm, .slnil, hplaced, ?_⟩
    simpa using h
  | cons r rest ih =>
    obtain ⟨hnotin, hnodup⟩ := List.nodup_cons.mp hnodup
    have hr := hrest r List.mem_cons_self
    have hrest' : ∀ r' ∈ rest, r' ∈ m.delayPoints := fun r' hr' => hrest r' (List.mem_cons_of_mem r hr')
    rw [reduceLoop] at hloop
    obtain ⟨⟨isEssential, mem₁⟩, htest, hloop⟩ := bind_ok hloop
    obtain ⟨hmirrors, hplaced'⟩ := testPointEssentiality_ok hdoc hdistinct h hplaced htest
    have hkeys : ∀ {mem₂ : Memory} {on' : Key → Bool}, Mirrors doc mem₂ m on' → ∀ rs : List ℕ,
        (∀ r' ∈ rs, r' ∈ m.delayPoints) → rs.map (fun r => (mem₂.points r).key) = rs.map fun r => (mem.points r).key :=
      fun h' rs hrs => List.map_congr_left fun r' hr' => h.key_eq h' (hrs r' hr')
    have hother : (mem.points r).key ∉ rest.map fun r => (mem.points r).key := fun hmem => by
      obtain ⟨r', hr', hkey⟩ := List.mem_map.mp hmem
      exact hnotin (h.inj hdistinct (hrest' r' hr') hr hkey ▸ hr')
    cases isEssential with
    | true =>
      obtain ⟨kept, rfl, hsub, hplaced'', hfinal⟩ := ih hrest' hnodup hmirrors hplaced' hloop
      refine ⟨r :: kept, by rw [List.append_assoc]; rfl, hsub.cons_cons r, hplaced'', hfinal.congr hdistinct fun p _ => ?_⟩
      rw [hkeys hmirrors rest hrest', hkeys hmirrors kept fun r' hr' => hrest' r' (hsub.subset hr')]
      by_cases hkey : p.key = (mem.points r).key
      · simp [hkey, hother]
      · simp [hkey]
    | false =>
      obtain ⟨mem₂, hdisable, hresult⟩ := disablePoint_ok hdoc hdistinct hmirrors hplaced' (mem₁.points r).key
      simp only [Bool.false_eq_true, if_false, hdisable, ok_bind] at hloop
      obtain ⟨kept, rfl, hsub, hplaced'', hfinal⟩ := ih hrest' hnodup hresult.mirrors (hplaced'.result hresult) hloop
      refine ⟨kept, rfl, hsub.cons r, hplaced'', hfinal.congr hdistinct fun p _ => ?_⟩
      rw [hkeys hresult.mirrors rest hrest', hkeys hresult.mirrors kept fun r' hr' => hrest' r' (hsub.subset hr'),
        h.key_eq hmirrors hr]
      by_cases hkey : p.key = (mem.points r).key
      · have hkept : (mem.points r).key ∉ kept.map fun r => (mem.points r).key := fun hmem =>
          hother ((hsub.map _).subset hmem)
        simp [hkey, hkept]
      · simp [hkey]

end Operations

/-! ### The files -/

mutual

/-- The document with every boolean replaced by one of them. -/
def forgetBooleans : Json → Json
  | .bool _ => .bool false
  | .arr items => .arr (forgetItems items)
  | .obj fields => .obj (forgetFields fields)
  | v => v

def forgetItems : List Json → List Json
  | [] => []
  | v :: vs => forgetBooleans v :: forgetItems vs

def forgetFields : List (String × Json) → List (String × Json)
  | [] => []
  | (k, v) :: fs => (k, forgetBooleans v) :: forgetFields fs

end

theorem forgetFields_eq (fields : List (String × Json)) :
    forgetFields fields = fields.map fun f => (f.1, forgetBooleans f.2) := by
  induction fields with
  | nil => rfl
  | cons f fields ih => rw [forgetFields, ih, List.map_cons]

/-- What the JSON functions promise: an object has no key twice, and a document that was loaded can be
saved and loaded again, also with other booleans in it. -/
structure JsonLibrary.Documented (library : JsonLibrary) : Prop where
  distinct : ∀ {text doc}, library.load text = some doc → Json.Distinct doc
  round_trip : ∀ {text doc doc'}, library.load text = some doc → forgetBooleans doc' = forgetBooleans doc →
    library.load (library.dump doc') = some doc'

theorem forgetBooleans_mapFields (g : String → Json → Json) (v : Json)
    (hg : ∀ f ∈ Json.fieldsOf v, forgetBooleans (g f.1 f.2) = forgetBooleans f.2) :
    forgetBooleans (Json.mapFields g v) = forgetBooleans v := by
  cases v with
  | obj fields =>
    rw [Json.mapFields, forgetBooleans, forgetFields_eq, forgetBooleans, forgetFields_eq, List.map_map]
    congr 1
    apply List.map_congr_left
    intro f hf
    rw [Function.comp_apply, hg f hf]
  | _ => rfl

theorem forgetBooleans_withOn (enabled : Bool) {point : Json} (hpoint : instrumentationPoint point) :
    forgetBooleans (withOn enabled point) = forgetBooleans point := by
  obtain ⟨enabled', hon⟩ := schema_on hpoint
  obtain ⟨fields, rfl, -, -⟩ := Json.Schema.object_iff.mp hpoint
  rw [withOn, forgetBooleans, forgetFields_eq, forgetBooleans, forgetFields_eq]
  congr 1
  rw [Json.fieldsOf] at hon
  clear hpoint
  induction fields with
  | nil => cases hon
  | cons f fields ih =>
    rw [Json.field, Dict.lookup] at hon
    by_cases hkey : f.1 = "on"
    · rw [if_pos hkey] at hon
      rw [Dict.upsertEntries, if_pos hkey, List.map_cons, List.map_cons, Option.some.inj hon, hkey]
      rfl
    · rw [if_neg hkey] at hon
      rw [Dict.upsertEntries, if_neg hkey, List.map_cons, List.map_cons, ih hon]

theorem forgetBooleans_enableOnly {doc : Json} (hdoc : delayConfigSchema doc) (hdistinct : Json.Distinct doc)
    (on : Key → Bool) : forgetBooleans (enableOnly on doc) = forgetBooleans doc :=
  mapPoints_rel (R := fun v w => forgetBooleans w = forgetBooleans v) (fun _ => rfl) forgetBooleans_mapFields hdistinct
    fun _ he _ hq => forgetBooleans_withOn _ (mem_fieldsAt_points (mem_fieldsAt_kernels hdoc he) hq)

/-- A mutator has some of another's points enabled, the others disabled, and nothing else changed. -/
structure EnablesExactly (mem : Memory) (base : DelayConfigMutator) (ps : List ℕ) (mem' : Memory)
    (m : DelayConfigMutator) : Prop where
  enabled : (m.enabledPoints mem').map (fun r => (mem'.points r).key) = ps.map fun r => (mem.points r).key
  points : m.delayPoints.map mem'.points = base.delayPoints.map fun r =>
    withEnabled (fun key => decide (key ∈ ps.map fun r => (mem.points r).key)) (mem.points r)
  rest : withoutOn (mem'.configs m.config) = withoutOn (mem.configs base.config)

/-- A text that loads, checked or not, as the config of such a mutator. -/
def SavedWith (library : JsonLibrary) (mem : Memory) (base : DelayConfigMutator) (ps : List ℕ) (text : String) : Prop :=
  ∀ configPath validate mem₀, ∃ m mem', DelayConfigMutator.init library configPath text validate mem₀ = .ok (m, mem') ∧
    EnablesExactly mem base ps mem' m

section Files

variable {library : JsonLibrary} {configPath text : String} {validate : Bool} {mem₀ mem : Memory}
  {base : DelayConfigMutator} {doc : Json}

/-- Choosing by keys among values with different keys. -/
theorem filter_mem_keys {α : Type} {key : α → Key} {xs ys : List α} (hnodup : (xs.map key).Nodup)
    (hsub : ys.Sublist xs) : xs.filter (fun x => decide (key x ∈ ys.map key)) = ys := by
  induction hsub with
  | slnil => rfl
  | @cons ys xs x hsub ih =>
    rw [List.map_cons, List.nodup_cons] at hnodup
    rw [List.filter_cons_of_neg, ih hnodup.2]
    exact fun hmem => hnodup.1 ((hsub.map key).subset (of_decide_eq_true hmem))
  | @cons_cons ys xs x hsub ih =>
    rw [List.map_cons, List.nodup_cons] at hnodup
    rw [List.filter_cons_of_pos (by simp)]
    congr 1
    refine Eq.trans (List.filter_congr fun y hy => ?_) (ih hnodup.2)
    have hne : key y ≠ key x := fun heq => hnodup.1 (heq ▸ List.mem_map_of_mem hy)
    simp [hne]

def enabledIn (doc : Json) (key : Key) : Bool :=
  (((pointsOf doc).filter fun p => p.enabled.truthy).map DelayPoint.key).contains key

theorem enabledIn_eq (hdistinct : Json.Distinct doc) {p : DelayPoint} (hp : p ∈ pointsOf doc) :
    enabledIn doc p.key = p.enabled.truthy := by
  rw [enabledIn, Bool.eq_iff_iff, List.contains_iff_mem, List.mem_map]
  constructor
  · rintro ⟨p', hp', hkey⟩
    obtain ⟨hmem, henabled⟩ := List.mem_filter.mp hp'
    rwa [← List.inj_on_of_nodup_map (pointsOf_keys_nodup hdistinct) hmem hp hkey]
  · exact fun henabled => ⟨p, List.mem_filter.mpr ⟨hp, henabled⟩, rfl⟩

theorem enabled_eq (hdoc : delayConfigSchema doc) (hdistinct : Json.Distinct doc) {p : DelayPoint}
    (hp : p ∈ pointsOf doc) : p.enabled = .bool (enabledIn doc p.key) := by
  rw [enabledIn_eq hdistinct hp]
  obtain ⟨e, he, q, hq, rfl⟩ := mem_pointsOf.mp hp
  obtain ⟨enabled, hon⟩ := schema_on (mem_fieldsAt_points (mem_fieldsAt_kernels hdoc he) hq)
  rw [pointOf, hon]
  rfl

theorem init_ok (hlib : library.Documented) (hload : DelayConfigMutator.init library configPath text validate mem₀ = .ok (base, mem))
    (hschema : delayConfigSchema (mem.configs base.config)) :
    ∃ doc, library.load text = some doc ∧ delayConfigSchema doc ∧ Json.Distinct doc ∧
      Mirrors doc mem base (enabledIn doc) ∧ Placed mem₀.nextConfig mem₀.nextPoint mem base := by
  rw [DelayConfigMutator.init] at hload
  cases htext : library.load text with
  | none =>
    rw [htext] at hload
    cases hload
  | some doc =>
    simp only [htext] at hload
    have hdistinct := hlib.distinct htext
    split_ifs at hload
    obtain ⟨ps, hps, hnew⟩ := bind_ok hload
    have hconfig : mem.configs base.config = doc := by
      cases hnew
      exact Function.update_self ..
    rw [hconfig] at hschema
    have hself := enableOnly_self hschema hdistinct fun p hp => enabled_eq hschema hdistinct hp
    obtain ⟨m, mem', hnew', hmirrors, hplaced, -⟩ := newMutator_ok hschema configPath (enabledIn doc) mem₀
    rw [hself, hload] at hnew'
    cases hnew'
    exact ⟨doc, rfl, hschema, hdistinct, hmirrors, hplaced⟩

theorem savedWith_of_mirrors (hlib : library.Documented) (htext : library.load text = some doc)
    (hdoc : delayConfigSchema doc) (hdistinct : Json.Distinct doc) {on : Key → Bool}
    (hbase : Mirrors doc mem base on) {ps : List ℕ} (hps : ps.Sublist base.delayPoints) {m : DelayConfigMutator}
    {mem' : Memory} (hm : Mirrors doc mem' m fun key => decide (key ∈ ps.map fun r => (mem.points r).key)) :
    SavedWith library mem base ps (m.save library mem') := by
  intro configPath validate mem₁
  have hback := hlib.round_trip htext (forgetBooleans_enableOnly hdoc hdistinct
    fun key => decide (key ∈ ps.map fun r => (mem.points r).key))
  obtain ⟨m', mem₂, hnew, hmirrors, -⟩ := newMutator_ok hdoc configPath
    (fun key => decide (key ∈ ps.map fun r => (mem.points r).key)) mem₁
  refine ⟨m', mem₂, ?_, ?_, ?_, ?_⟩
  · rw [DelayConfigMutator.init, DelayConfigMutator.save, hm.config, hback]
    simp only [enableOnly_schema _ hdoc, Bool.not_true, Bool.and_false, Bool.false_eq_true, if_false]
    exact hnew
  · rw [hmirrors.enabled_keys, ← hbase.keys, List.filter_map]
    exact congrArg _ (filter_mem_keys (hbase.keys_nodup hdistinct) hps)
  · rw [hmirrors.points, hbase.map_withEnabled]
  · rw [hmirrors.config, hbase.config, withoutOn_enableOnly, withoutOn_enableOnly]

/-- What is saved for some of the points of a loaded config, by `_make_config_with_points` and at the end
of a linear reduction, loads as the config with exactly these points enabled. -/
theorem saved_configs (hlib : library.Documented)
    (hload : DelayConfigMutator.init library configPath text validate mem₀ = .ok (base, mem))
    (hschema : delayConfigSchema (mem.configs base.config)) :
    (∀ ps : List ℕ, ps.Sublist base.delayPoints →
      ∃ m mem', makeConfigWithPoints base ps mem = .ok (m, mem') ∧
        SavedWith library mem base ps (m.save library mem') ∧
        mem'.configs base.config = mem.configs base.config ∧
        ∀ r ∈ base.delayPoints, mem'.points r = mem.points r) ∧
    ∀ (test : ℕ → String → Except PyError Bool) (outputPath : String) (r : ReduceResult) (m : DelayConfigMutator)
      (mem' : Memory),
      reduceDelayPoints library test configPath text validate (some outputPath) mem₀ = .ok (r, m, mem') →
      r.essentialPoints.Sublist (base.enabledPoints mem) ∧
        ∃ minimal, r.minimalConfig = some (outputPath, minimal) ∧
          SavedWith library mem base r.essentialPoints minimal := by
  obtain ⟨doc, htext, hdoc, hdistinct, hmirrors, hplaced⟩ := init_ok hlib hload hschema
  constructor
  · intro ps hps
    obtain ⟨m, mem', hmake, hm, hsame⟩ :=
      makeConfigWithPoints_ok hdoc hdistinct hmirrors hplaced fun r hr => hps.subset hr
    exact ⟨m, mem', hmake, savedWith_of_mirrors hlib htext hdoc hdistinct hmirrors hps hm,
      hsame.configs _ hplaced.config.2, fun r hr => hsame.points r (hplaced.points r hr).2⟩
  · intro test outputPath r m mem' hreduce
    rw [reduceDelayPoints, hload, ok_bind] at hreduce
    dsimp only at hreduce
    split_ifs at hreduce
    obtain ⟨interesting, -, hreduce⟩ := bind_ok hreduce
    split_ifs at hreduce
    obtain ⟨⟨essential, mem₁⟩, hloop, hreduce⟩ := bind_ok hreduce
    obtain ⟨rfl, hrest⟩ := Prod.mk.inj (Except.ok.inj hreduce)
    cases hrest
    have hall : (base.enabledPoints mem).Sublist base.delayPoints := List.filter_sublist
    obtain ⟨kept, hkept, hsub, -, hfinal⟩ := reduceLoop_ok hdoc hdistinct (fun r hr => hall.subset hr)
      (hplaced.nodup.sublist hall) hmirrors ⟨⟨Nat.zero_le _, hplaced.config.2⟩,
        fun r hr => ⟨Nat.zero_le _, (hplaced.points r hr).2⟩, hplaced.nodup⟩ hloop
    obtain rfl : essential = kept := hkept
    refine ⟨hsub, _, rfl, savedWith_of_mirrors hlib htext hdoc hdistinct hmirrors (hsub.trans hall)
      (hfinal.congr hdistinct fun p hp => ?_)⟩
    have hkey : p.key ∈ (base.enabledPoints mem).map (fun r => (mem.points r).key) ↔ enabledIn doc p.key := by
      rw [hmirrors.enabled_keys, List.mem_filter]
      exact and_iff_right (List.mem_map_of_mem hp)
    have hkeptKey : p.key ∈ essential.map (fun r => (mem.points r).key) → enabledIn doc p.key = true := fun hmem =>
      hkey.mp ((hsub.map _).subset hmem)
    cases henabled : enabledIn doc p.key with
    | true => simp [hkey.mpr henabled]
    | false =>
      have hnot : p.key ∉ essential.map (fun r => (mem.points r).key) := fun hmem => by
        rw [hkeptKey hmem] at henabled
        cases henabled
      rw [decide_eq_false hnot, Bool.false_and]

end Files

/-! ### One library -/

theorem everywhere_forgetBooleans {p : Json → Bool} (hp : ∀ v, p (forgetBooleans v) = p v) (v : Json) :
    Json.everywhere p (forgetBooleans v) ↔ Json.everywhere p v := by
  have hitems : ∀ items, forgetItems items = items.map forgetBooleans := by
    intro items
    induction items with
    | nil => rfl
    | cons v vs ih => rw [forgetItems, ih, List.map_cons]
  induction v using Json.induct with
  | null => exact Iff.rfl
  | bool b => exact Bool.eq_iff_iff.mp (hp (.bool b))
  | int i => exact Iff.rfl
  | float bits => exact Iff.rfl
  | str s => exact Iff.rfl
  | arr items ih =>
    have hnode := hp (.arr items)
    rw [forgetBooleans] at hnode ⊢
    rw [Json.everywhere_arr, Json.everywhere_arr, hnode, hitems, List.forall_mem_map]
    exact and_congr_right fun _ => forall₂_congr ih
  | obj fields ih =>
    have hnode := hp (.obj fields)
    rw [forgetBooleans] at hnode ⊢
    rw [Json.everywhere_obj, Json.everywhere_obj, hnode, forgetFields_eq, List.forall_mem_map]
    exact and_congr_right fun _ => forall₂_congr ih

/-- Compact texts of documents without floats and repeated keys. -/
def compactJson : JsonLibrary where
  dump := Json.dump false
  load text := (Json.parse text).filter fun v => decide (Json.Exact v ∧ Json.Distinct v)

theorem compactJson_load {text : String} {doc : Json} (h : compactJson.load text = some doc) :
    Json.Exact doc ∧ Json.Distinct doc := of_decide_eq_true (Option.filter_eq_some_iff.mp h).2

theorem compactJson_dump {doc : Json} (hexact : Json.Exact doc) (hdistinct : Json.Distinct doc) :
    compactJson.load (compactJson.dump doc) = some doc :=
  Option.filter_eq_some_iff.mpr ⟨Json.parse_dump false hexact, decide_eq_true ⟨hexact, hdistinct⟩⟩

theorem compactJson_documented : compactJson.Documented where
  distinct h := (compactJson_load h).2
  round_trip h hsame := by
    obtain ⟨hexact, hdistinct⟩ := compactJson_load h
    apply compactJson_dump
    · rw [Json.Exact, ← everywhere_forgetBooleans (fun v => by cases v <;> rfl), hsame]
      exact (everywhere_forgetBooleans (fun v => by cases v <;> rfl) _).mpr hexact
    · have hnode : ∀ v, Json.distinctNode (forgetBooleans v) = Json.distinctNode v := by
        intro v
        cases v with
        | obj fields =>
          rw [forgetBooleans, forgetFields_eq, Json.distinctNode, Json.distinctNode, List.map_map]
          rfl
        | _ => rfl
      rw [Json.Distinct, ← everywhere_forgetBooleans hnode, hsame]
      exact (everywhere_forgetBooleans hnode _).mpr hdistinct

def twoPoints : Json :=
  .obj [("version", .str "1.0"), ("delay_ns", .int 10000), ("kernels", .obj [("matmul_0", .obj
    [("kernel_name", .str "matmul"), ("kernel_checksum", .str "a1b2"),
      ("timestamp", .str "2026-02-03T21:15:21.567"),
      ("instrumentation_points", .obj
        [("256", .obj [("pc", .int 256), ("sass", .str "LDG R0"), ("delay", .int 10000), ("on", .bool true)]),
          ("272", .obj [("pc", .int 272), ("sass", .str "STG R0"), ("delay", .int 10000), ("on", .bool false)])])])])]

def emptyMemory : Memory := ⟨fun _ => .null, 0, fun _ => ⟨"", .null, "", .null, .null, .null⟩, 0⟩

theorem saved_configs_twoPoints : ∃ base mem m mem',
    DelayConfigMutator.init compactJson "delay.json" (compactJson.dump twoPoints) true emptyMemory = .ok (base, mem) ∧
      makeConfigWithPoints base [1] mem = .ok (m, mem') ∧
      SavedWith compactJson mem base [1] (m.save compactJson mem') := by
  have hschema : delayConfigSchema twoPoints = true := by decide +kernel
  have htext : compactJson.load (compactJson.dump twoPoints) = some twoPoints :=
    compactJson_dump (by decide +kernel) (by decide +kernel)
  have hload : DelayConfigMutator.init compactJson "delay.json" (compactJson.dump twoPoints) true emptyMemory =
      .ok (⟨"delay.json", 0, [0, 1]⟩, emptyMemory.allocate twoPoints (pointsOf twoPoints)) := by
    rw [DelayConfigMutator.init, htext]
    simp only [hschema, Bool.not_true, Bool.and_false, Bool.false_eq_true, if_false]
    rw [newMutator, parseDelayPoints_ok hschema]
    rfl
  obtain ⟨hmake, -⟩ := saved_configs compactJson_documented hload hschema
  obtain ⟨m, mem', hmake, hsaved, -⟩ := hmake [1] (List.Sublist.cons 0 (List.Sublist.refl [1]))
  exact ⟨_, _, m, mem', hload, hmake, hsaved⟩

end CuTracer.Reduce.Document
