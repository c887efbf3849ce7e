import CuTracer.Plan.Points

/-! Configurations. One that was read is good: its selections are sorted, its budget is
positive and its points are joined and in order. The JSON of a good configuration is
read as the configuration, if the points of the plan are not too many. -/

namespace CuTracer.Plan

variable {v : Vendor} {j : Json}

/-! ### Selections -/

def IsCta (c : Cta) : Prop := ∀ n ∈ c.coordinates, n ≤ kExactIntegerMax

theorem read_cta (j : Json) (c : Cta) : cta j = .ok c ↔ j = ints c.coordinates ∧ IsCta c := by
  constructor
  · intro h
    unfold cta at h
    split at h
    · obtain ⟨x, hx, h⟩ := bind_ok h
      obtain ⟨y, hy, h⟩ := bind_ok h
      obtain ⟨z, hz, h⟩ := bind_ok h
      cases h
      obtain ⟨rfl, hx⟩ := (read_integer _ _).mp hx
      obtain ⟨rfl, hy⟩ := (read_integer _ _).mp hy
      obtain ⟨rfl, hz⟩ := (read_integer _ _).mp hz
      refine ⟨rfl, ?_⟩
      intro n hn
      simp only [Cta.coordinates, ofLex_toLex, List.mem_cons, List.not_mem_nil, or_false] at hn
      rcases hn with rfl | rfl | rfl <;> assumption
    · exact absurd h fail_ne
  · rintro ⟨rfl, h⟩
    have hread : ∀ n ∈ c.coordinates, integer (.int n) 0 kExactIntegerMax = .ok n := fun n hn =>
      (read_integer _ n).mpr ⟨rfl, h n hn⟩
    simp only [Cta.coordinates, List.forall_mem_cons] at hread
    obtain ⟨hx, hy, hz, -⟩ := hread
    simp only [ints, Cta.coordinates, List.map_cons, List.map_nil, cta, hx, hy, hz, ok_bind]
    rfl

/-- All values, as an empty list, or the values of a selection array. -/
def IsCapture {α : Type} [LinearOrder α] (p : α → Prop) (values : List α) : Prop :=
  values = [] ∨ IsSelection p values

theorem isText_all : IsText "all" := isText_literal rfl (by decide)

section Selection

variable {α : Type} [LinearOrder α] {p : α → Prop} {read : Json → Except PlanError α}
  {encode : α → Json}

theorem isCapture_selection (hread : ∀ j x, read j = .ok x ↔ j = encode x ∧ p x)
    {values : List α} (h : selection (sortedArray read) j = .ok values) : IsCapture p values := by
  unfold selection at h
  split at h
  · obtain ⟨-, -, h⟩ := bind_ok h
    exact .inl (Except.ok.inj h).symm
  · exact .inr (isSelection_of_sortedArray hread h)

theorem selection_self (hread : ∀ j x, read j = .ok x ↔ j = encode x ∧ p x) {values : List α}
    (h : IsCapture p values) :
    selection (sortedArray read) (selectionJson (fun xs => .arr (xs.map encode)) values) =
      .ok values := by
  unfold selectionJson
  split_ifs with hnil
  · rw [hnil, selection, constant_ok.mpr ⟨rfl, isText_all⟩]
    rfl
  · exact sortedArray_self hread (h.resolve_left hnil)

end Selection

def LaunchSelector.Good (launches : LaunchSelector) : Prop :=
  launches = ⟨true, []⟩ ∨
    launches.all = false ∧ IsSelection (· ≤ kExactIntegerMax) launches.ordinals

theorem good_launchSelector {launches : LaunchSelector} (h : launchSelector j = .ok launches) :
    launches.Good := by
  unfold launchSelector at h
  split at h
  · exact absurd h fail_ne
  obtain ⟨modeJson, -, h⟩ := bind_ok h
  obtain ⟨mode, -, h⟩ := bind_ok h
  split at h
  · obtain ⟨-, -, h⟩ := bind_ok h
    exact .inl (Except.ok.inj h).symm
  split at h
  · obtain ⟨-, -, h⟩ := bind_ok h
    obtain ⟨indices, -, h⟩ := bind_ok h
    obtain ⟨ordinals, hordinals, h⟩ := bind_ok h
    cases h
    exact .inr ⟨rfl, isSelection_integers hordinals⟩
  · exact absurd h fail_ne

theorem launchSelector_toJson {launches : LaunchSelector} (h : launches.Good) :
    launchSelector launches.toJson = .ok launches := by
  obtain ⟨all, ordinals⟩ := launches
  rcases h with h | ⟨hall, hordinals⟩
  · cases h
    have hkeys : keys (.obj [("mode", .str "all")]) ["mode"] = .ok () :=
      keys_obj _ rfl (List.Perm.refl _)
    simp [launchSelector, LaunchSelector.toJson, contains_obj_cons, member_obj_cons,
      text_str isText_all, hkeys]
  · simp only at hall hordinals
    subst hall
    have htext : text (.str "per_context_kernel_ordinal") = .ok "per_context_kernel_ordinal" :=
      text_str (isText_literal rfl (by decide))
    have hkeys : keys (.obj [("indices", ints ordinals),
        ("mode", .str "per_context_kernel_ordinal")]) ["mode", "indices"] = .ok () :=
      keys_obj ["indices", "mode"] rfl (by decide)
    simp [launchSelector, LaunchSelector.toJson, contains_obj_cons, member_obj_cons, htext, hkeys,
      integers_self hordinals]

structure CaptureSelector.Good (capture : CaptureSelector) : Prop where
  ctas : IsCapture IsCta capture.ctas
  warps : IsCapture (· ≤ kExactIntegerMax) capture.warps
  lanes : IsCapture (· ≤ 31) capture.lanes

theorem good_captureSelector {capture : CaptureSelector}
    (h : captureSelector j = .ok capture) : capture.Good := by
  obtain ⟨-, -, h⟩ := bind_ok h
  obtain ⟨ctasJson, -, h⟩ := bind_ok h
  obtain ⟨ctas, hctas, h⟩ := bind_ok h
  obtain ⟨warpsJson, -, h⟩ := bind_ok h
  obtain ⟨warps, hwarps, h⟩ := bind_ok h
  obtain ⟨lanesJson, -, h⟩ := bind_ok h
  obtain ⟨lanes, hlanes, h⟩ := bind_ok h
  cases h
  exact ⟨isCapture_selection read_cta hctas, isCapture_selection read_integer hwarps,
    isCapture_selection read_integer hlanes⟩

theorem captureSelector_toJson {capture : CaptureSelector} (h : capture.Good) :
    captureSelector capture.toJson = .ok capture := by
  have hkeys : keys capture.toJson ["ctas", "warps", "lanes"] = .ok () :=
    keys_obj ["ctas", "lanes", "warps"] rfl (by decide)
  have hctas : selection ctas (selectionJson
      (fun ctas => .arr (ctas.map fun cta => ints cta.coordinates)) capture.ctas) =
      .ok capture.ctas := selection_self read_cta h.ctas
  have hwarps : selection (integers · kExactIntegerMax) (selectionJson ints capture.warps) =
      .ok capture.warps := selection_self read_integer h.warps
  have hlanes : selection (integers · 31) (selectionJson ints capture.lanes) =
      .ok capture.lanes := selection_self read_integer h.lanes
  rw [captureSelector, hkeys, ok_bind]
  simp only [CaptureSelector.toJson, member_obj_cons, String.reduceEq, if_true, if_false, ok_bind,
    hctas, hwarps, hlanes]
  rfl

structure Budget.Good (budget : Budget) : Prop where
  records : 1 ≤ budget.maxRecords ∧ budget.maxRecords ≤ kExactIntegerMax
  bytes : 1 ≤ budget.maxBytes ∧ budget.maxBytes ≤ kExactIntegerMax

theorem good_budget {b : Budget} (h : budget j = .ok b) : b.Good := by
  obtain ⟨-, -, h⟩ := bind_ok h
  obtain ⟨limitJson, -, h⟩ := bind_ok h
  obtain ⟨-, -, h⟩ := bind_ok h
  obtain ⟨recordsJson, -, h⟩ := bind_ok h
  obtain ⟨records, hrecords, h⟩ := bind_ok h
  obtain ⟨bytesJson, -, h⟩ := bind_ok h
  obtain ⟨bytes, hbytes, h⟩ := bind_ok h
  cases h
  exact ⟨(integer_ok.mp hrecords).2, (integer_ok.mp hbytes).2⟩

theorem budget_toJson {b : Budget} (h : b.Good) : budget b.toJson = .ok b := by
  have hkeys : keys b.toJson ["max_records", "max_bytes", "on_limit"] = .ok () :=
    keys_obj ["max_bytes", "max_records", "on_limit"] rfl (by decide)
  have hlimit : constant (.str "mark_incomplete") "mark_incomplete" = .ok () :=
    constant_ok.mpr ⟨rfl, isText_literal rfl (by decide)⟩
  rw [budget, hkeys, ok_bind]
  simp only [Budget.toJson, member_obj_cons, String.reduceEq, if_true, if_false, ok_bind, hlimit,
    integer_ok.mpr ⟨rfl, h.records⟩, integer_ok.mpr ⟨rfl, h.bytes⟩]
  rfl

/-! ### Points -/

def collectPoints (v : Vendor) (points candidates : List Point) : Except PlanError (List Point) :=
  candidates.foldlM (fun m p => emplaceWith Point.key (joinPoint v) p m) points

/-- Adding points reads them, counts them and collects them. -/
theorem foldlM_addPoint {items : List Json} {ps qs : List Point} {n n' : ℕ}
    (hn : n ≤ kPointsMax) :
    items.foldlM (addPoint v) (ps, n) = .ok (qs, n') ↔
      n' = n + items.length ∧ n' ≤ kPointsMax ∧
        ∃ cs, items.mapM (point v) = .ok cs ∧ collectPoints v ps cs = .ok qs := by
  induction items generalizing ps n with
  | nil =>
    constructor
    · intro h
      cases h
      exact ⟨rfl, hn, [], rfl, rfl⟩
    · rintro ⟨rfl, -, cs, hcs, hqs⟩
      cases hcs
      cases hqs
      rfl
  | cons item items ih =>
    rw [List.foldlM_cons, List.mapM_cons]
    constructor
    · intro h
      obtain ⟨⟨rs, m⟩, hstep, hrest⟩ := bind_ok h
      unfold addPoint at hstep
      split at hstep
      · exact absurd hstep fail_ne
      next hroom =>
      obtain ⟨c, hc, hstep⟩ := bind_ok hstep
      obtain ⟨ts, hts, hstep⟩ := bind_ok hstep
      cases hstep
      obtain ⟨rfl, hle, cs, hcs, hqs⟩ := (ih (by simp only at hroom; omega)).mp hrest
      simp only at hroom
      refine ⟨by simp only [List.length_cons]; omega, hle, c :: cs, by rw [hc, hcs]; rfl, ?_⟩
      rw [collectPoints, List.foldlM_cons, hts]
      exact hqs
    · rintro ⟨rfl, hle, cs, hcs, hqs⟩
      have hlen : (item :: items).length = items.length + 1 := rfl
      obtain ⟨c, hc, hcs⟩ := bind_ok hcs
      obtain ⟨ds, hds, hcs⟩ := bind_ok hcs
      cases hcs
      rw [collectPoints, List.foldlM_cons] at hqs
      obtain ⟨ts, hts, hqs⟩ := bind_ok hqs
      have hroom : ¬kPointsMax < n + 1 := by omega
      rw [addPoint, if_neg hroom, hc, ok_bind, hts]
      refine (ih (by omega)).mpr ⟨by omega, hle, ds, hds, hqs⟩

/-- The points of a configuration: joined and in order. -/
structure IsPoints (v : Vendor) (points : List Point) : Prop where
  good : ∀ p ∈ points, p.Good v
  increasing : IncreasingBy Point.key points
  ne : points ≠ []
  length : points.length ≤ kPointsMax

theorem accumulates_points (hv : v.Lawful) :
    Accumulates (fun m p => emplaceWith Point.key (joinPoint v) p m)
      (Collected Point.key (Point.Good v)) (Point.Good v) (keyed Point.key Point.facts)
      (fun p => {f | f.1 = p.key ∧ f.2 ∈ p.facts}) (fun I => ∀ k, PointFits (at_ k I)) :=
  (joins_point hv).accumulates

/-- A collection has no more records than were collected. -/
theorem length_collectPoints {ps cs qs : List Point} (h : collectPoints v ps cs = .ok qs) :
    qs.length ≤ ps.length + cs.length := by
  induction cs generalizing ps with
  | nil =>
    cases h
    simp
  | cons c cs ih =>
    rw [collectPoints, List.foldlM_cons] at h
    obtain ⟨rs, hrs, hrest⟩ := bind_ok h
    have hlen := length_emplaceWith hrs
    have := ih hrest
    rw [List.length_cons]
    split_ifs at hlen <;> omega

theorem isPoints_collect (hv : v.Lawful) {cs ps : List Point} (hcs : ∀ c ∈ cs, c.Good v)
    (hne : cs ≠ []) (hlen : cs.length ≤ kPointsMax) (h : collectPoints v [] cs = .ok ps) :
    IsPoints v (sortOn Point.key ps) := by
  obtain ⟨hinv, hinfo⟩ := (accumulates_points hv).foldlM_ok (collected_nil _ _) hcs h
  refine ⟨fun p hp => hinv.good p (mem_sortOn.mp hp), sortOn_increasing hinv.nodup, ?_, ?_⟩
  · obtain ⟨c, hc⟩ := List.exists_mem_of_ne_nil cs hne
    have hmem : (c.key, .bytes c.expectedBytes) ∈ keyed Point.key Point.facts ps := by
      rw [hinfo]
      exact .inr ⟨c, hc, rfl, rfl⟩
    obtain ⟨p, hp, -⟩ := hmem
    exact List.ne_nil_of_mem (mem_sortOn.mpr hp)
  · have := length_collectPoints h
    rw [length_sortOn]
    simp only [List.length_nil, Nat.zero_add] at this
    omega

theorem mapM_points {ps : List Point} (h : ∀ p ∈ ps, p.Good v) :
    (ps.map Point.toJson).mapM (point v) = .ok ps := by
  apply mapM_ok.mpr
  induction ps with
  | nil => exact .nil
  | cons p ps ih =>
    obtain ⟨hp, hps⟩ := List.forall_mem_cons.mp h
    exact .cons (point_toJson hp) (ih hps)

/-! ### Configurations -/

def itemsAt (j : Json) (key : String) : List Json :=
  match j with
  | .obj fields =>
    match Json.field fields key with
    | some (.arr items) => items
    | _ => []
  | _ => []

theorem itemsAt_of_member {key : String} {w : Json} {items : List Json} {n : ℕ}
    (hmember : member j key = .ok w) (harray : array w n = .ok items) : itemsAt j key = items := by
  obtain ⟨fields, rfl, hfield⟩ := member_ok hmember
  obtain ⟨rfl, -, -⟩ := array_ok.mp harray
  simp [itemsAt, hfield]

structure Config.GoodFields (c : Config) : Prop where
  id : IsText c.id
  requests : IsSelection IsText c.requests
  launches : c.launches.Good
  capture : c.capture.Good
  budget : c.budget.Good

theorem good_configFields {c : Config} (h : configFields j = .ok c) : c.GoodFields := by
  obtain ⟨-, -, h⟩ := bind_ok h
  obtain ⟨idJson, -, h⟩ := bind_ok h
  obtain ⟨id, hid, h⟩ := bind_ok h
  obtain ⟨requestsJson, -, h⟩ := bind_ok h
  obtain ⟨requests, hrequests, h⟩ := bind_ok h
  obtain ⟨launchesJson, -, h⟩ := bind_ok h
  obtain ⟨launches, hlaunches, h⟩ := bind_ok h
  obtain ⟨captureJson, -, h⟩ := bind_ok h
  obtain ⟨capture, hcapture, h⟩ := bind_ok h
  obtain ⟨budgetJson, -, h⟩ := bind_ok h
  obtain ⟨budget, hbudget, h⟩ := bind_ok h
  cases h
  exact ⟨(text_ok.mp hid).2, isSelection_strings hrequests, good_launchSelector hlaunches,
    good_captureSelector hcapture, good_budget hbudget⟩

theorem configFields_toJson {c : Config} (h : c.GoodFields) :
    configFields c.toJson = .ok { c with points := [] } := by
  have hkeys : keys c.toJson ["config_id", "requests", "launches", "capture", "budget",
      "points"] = .ok () :=
    keys_obj ["budget", "capture", "config_id", "launches", "points", "requests"] rfl (by decide)
  rw [configFields, hkeys, ok_bind]
  simp only [Config.toJson, member_obj_cons, String.reduceEq, if_true, if_false, ok_bind,
    text_str h.id, strings_self h.requests, launchSelector_toJson h.launches,
    captureSelector_toJson h.capture, budget_toJson h.budget]
  rfl

structure Config.Good (v : Vendor) (c : Config) : Prop where
  fields : c.GoodFields
  points : IsPoints v c.points

/-- A configuration without the count of the points before it. -/
def readConfig (v : Vendor) (j : Json) : Except PlanError Config := (config v j 0).map Prod.fst

def pointCount (j : Json) : ℕ := (itemsAt j "points").length

/-- A configuration is its fields and its collected points; reading it counts the points. -/
theorem config_ok {c : Config} {n n' : ℕ} (hn : n ≤ kPointsMax) :
    config v j n = .ok (c, n') ↔
      n' = n + pointCount j ∧ n' ≤ kPointsMax ∧ ∃ result w items cs ps,
        configFields j = .ok result ∧ member j "points" = .ok w ∧
          array w kPointsMax = .ok items ∧ items.mapM (point v) = .ok cs ∧
            collectPoints v [] cs = .ok ps ∧
              c = { result with points := sortOn Point.key ps } := by
  constructor
  · intro h
    obtain ⟨result, hresult, h⟩ := bind_ok h
    obtain ⟨w, hw, h⟩ := bind_ok h
    obtain ⟨items, hitems, h⟩ := bind_ok h
    obtain ⟨⟨ps, m⟩, hfold, h⟩ := bind_ok h
    cases h
    obtain ⟨rfl, hle, cs, hcs, hps⟩ := (foldlM_addPoint hn).mp hfold
    rw [pointCount, itemsAt_of_member hw hitems]
    exact ⟨rfl, hle, result, w, items, cs, ps, hresult, hw, hitems, hcs, hps, rfl⟩
  · rintro ⟨rfl, hle, result, w, items, cs, ps, hresult, hw, hitems, hcs, hps, rfl⟩
    rw [pointCount, itemsAt_of_member hw hitems] at hle ⊢
    rw [config, hresult, ok_bind, hw, ok_bind, hitems, ok_bind,
      (foldlM_addPoint hn).mpr ⟨rfl, hle, cs, hcs, hps⟩]
    rfl

theorem readConfig_ok {c : Config} :
    readConfig v j = .ok c ↔ ∃ result w items cs ps,
      configFields j = .ok result ∧ member j "points" = .ok w ∧
        array w kPointsMax = .ok items ∧ items.mapM (point v) = .ok cs ∧
          collectPoints v [] cs = .ok ps ∧ c = { result with points := sortOn Point.key ps } := by
  constructor
  · intro h
    obtain ⟨⟨d, n⟩, hd, rfl⟩ := map_ok h
    exact ((config_ok (Nat.zero_le _)).mp hd).2.2
  · intro h
    have hcount : pointCount j ≤ kPointsMax := by
      obtain ⟨-, w, items, -, -, -, hw, hitems, -⟩ := h
      rw [pointCount, itemsAt_of_member hw hitems]
      exact (array_ok.mp hitems).2.2
    have := (config_ok (v := v) (n := 0) (Nat.zero_le _)).mpr ⟨rfl, by omega, h⟩
    rw [readConfig, this]
    rfl

/-- The count matters only for the limit. -/
theorem config_iff {c : Config} {n n' : ℕ} (hn : n ≤ kPointsMax) :
    config v j n = .ok (c, n') ↔
      readConfig v j = .ok c ∧ n' = n + pointCount j ∧ n' ≤ kPointsMax := by
  rw [config_ok hn, readConfig_ok]
  tauto

/-- What is read is a good configuration, and it has no more points than its JSON. -/
theorem good_config (hv : v.Lawful) {c : Config} (h : readConfig v j = .ok c) :
    c.Good v ∧ c.points.length ≤ pointCount j := by
  obtain ⟨result, w, items, cs, ps, hresult, hw, hitems, hcs, hps, rfl⟩ := readConfig_ok.mp h
  have hread := mapM_ok.mp hcs
  have hgood : ∀ p ∈ cs, p.Good v := fun p hp => by
    obtain ⟨item, -, hitem⟩ := forall₂_mem_right hread hp
    exact good_point hv hitem
  obtain ⟨-, hne, hlen⟩ := array_ok.mp hitems
  have hlength := hread.length_eq
  have hcsne : cs ≠ [] := by
    rw [← List.length_pos_iff, ← hlength]
    exact List.length_pos_iff.mpr hne
  have hfields := good_configFields hresult
  refine ⟨⟨{ hfields with },
    isPoints_collect hv hgood hcsne (by omega) hps⟩, ?_⟩
  have := length_collectPoints hps
  rw [pointCount, itemsAt_of_member hw hitems, length_sortOn, hlength]
  simpa using this

theorem pointCount_toJson (c : Config) : pointCount c.toJson = c.points.length := by
  simp [pointCount, itemsAt, Config.toJson, Json.field, Dict.lookup]

/-- A good configuration is read from its JSON as it is. -/
theorem readConfig_toJson {c : Config} (h : c.Good v) : readConfig v c.toJson = .ok c := by
  have harray : array (.arr (c.points.map Point.toJson)) kPointsMax =
      .ok (c.points.map Point.toJson) :=
    array_ok.mpr ⟨rfl, by simpa using h.points.ne, by simpa using h.points.length⟩
  have hcollect : collectPoints v [] c.points = .ok c.points :=
    foldlM_emplaceWith_self [] h.points.increasing.nodup
  have hmember : member c.toJson "points" = .ok (.arr (c.points.map Point.toJson)) := by
    simp only [Config.toJson, member_obj_cons, String.reduceEq, if_true, if_false]
  refine readConfig_ok.mpr ⟨_, _, _, c.points, c.points, configFields_toJson h.fields, hmember,
    harray, mapM_points h.points.good, hcollect, ?_⟩
  rw [sortOn_eq_self h.points.increasing]

end CuTracer.Plan
