import CuTracer.Plan.Load

/-! The canonical JSON of a plan is plain, so its text can be read back, and not deep. -/

namespace CuTracer.Plan

open Json

variable {v : Vendor}

/-! ### Plain -/

theorem plain_fields {fields : List (String × Json)} (names : List String)
    (hnames : fields.map Prod.fst = names) (hincreasing : names.Pairwise (· < ·))
    (h : ∀ f ∈ fields, Plain f.2) : Plain (.obj fields) :=
  plain_obj.mpr ⟨hnames ▸ hincreasing, h⟩

theorem plain_items {α : Type} {encode : α → Json} {xs : List α}
    (h : ∀ x ∈ xs, Plain (encode x)) : Plain (.arr (xs.map encode)) := by
  rw [plain_arr]
  intro w hw
  obtain ⟨x, hx, rfl⟩ := List.mem_map.mp hw
  exact h x hx

theorem plain_exact {n : ℕ} (h : n ≤ kExactIntegerMax) : Plain (.int n) :=
  plain_nat (lt_of_le_of_lt h (by decide))

theorem plain_ints {xs : List ℕ} (h : ∀ n ∈ xs, n ≤ kExactIntegerMax) : Plain (ints xs) :=
  plain_items fun n hn => plain_exact (h n hn)

theorem plain_selection {α : Type} [LinearOrder α] {p : α → Prop} {encode : List α → Json}
    {values : List α} (h : IsCapture p values)
    (hencode : (∀ x ∈ values, p x) → Plain (encode values)) :
    Plain (selectionJson encode values) := by
  unfold selectionJson
  split_ifs with hnil
  · exact plain_str _
  · exact hencode (h.resolve_left hnil).all

theorem plain_point {p : Point} (h : p.Good v) : Plain p.toJson := by
  have hobservations : Plain (.arr (p.observations.map encode)) :=
    plain_items fun o ho => plain_encode (h.observations.merged.1.good o ho)
  apply plain_fields ["expected_bytes", "function", "observations", "pc", "phase",
    "predicate_policy"] rfl (by decide)
  simp [hobservations]

theorem plain_launches {launches : LaunchSelector} (h : launches.Good) : Plain launches.toJson := by
  unfold LaunchSelector.toJson
  rcases h with rfl | ⟨hall, hordinals⟩
  · exact plain_fields ["mode"] rfl (by decide) (by simp)
  · have hindices : Plain (ints launches.ordinals) := plain_ints hordinals.all
    rw [if_neg (by simp [hall])]
    exact plain_fields ["indices", "mode"] rfl (by decide) (by simp [hindices])

theorem plain_capture {capture : CaptureSelector} (h : capture.Good) : Plain capture.toJson := by
  have hctas : Plain (selectionJson
      (fun ctas => .arr (ctas.map fun cta => ints cta.coordinates)) capture.ctas) :=
    plain_selection h.ctas fun hall => plain_items fun c hc => plain_ints (hall c hc)
  have hwarps : Plain (selectionJson ints capture.warps) :=
    plain_selection h.warps fun hall => plain_ints hall
  have hlanes : Plain (selectionJson ints capture.lanes) :=
    plain_selection h.lanes fun hall => plain_ints fun n hn =>
      le_trans (hall n hn) (by decide)
  exact plain_fields ["ctas", "lanes", "warps"] rfl (by decide) (by simp [hctas, hwarps, hlanes])

theorem plain_budget {b : Budget} (h : b.Good) : Plain b.toJson := by
  have hbytes := plain_exact h.bytes.2
  have hrecords := plain_exact h.records.2
  exact plain_fields ["max_bytes", "max_records", "on_limit"] rfl (by decide)
    (by simp [hbytes, hrecords])

theorem plain_config {c : Config} (h : c.Good v) : Plain c.toJson := by
  have hpoints : Plain (.arr (c.points.map Point.toJson)) :=
    plain_items fun p hp => plain_point (h.points.good p hp)
  exact plain_fields ["budget", "capture", "config_id", "launches", "points", "requests"] rfl
    (by decide) (by simp [plain_budget h.fields.budget, plain_capture h.fields.capture,
      plain_launches h.fields.launches, hpoints, plain_strs])

theorem plain_kernel {k : Kernel} (h : k.Good v) : Plain k.toJson := by
  have hconfigs : Plain (.arr (k.configs.map Config.toJson)) :=
    plain_items fun c hc => plain_config (h.configs c hc)
  have hidentity : Plain (.obj [("kind", .str "cubin_sha256"), ("value", .str k.cubinSha256)]) :=
    plain_fields ["kind", "value"] rfl (by decide) (by simp)
  have hmatch : Plain (.obj [("entry", .str k.entry), ("identity",
      .obj [("kind", .str "cubin_sha256"), ("value", .str k.cubinSha256)]),
      ("target", .str k.target)]) :=
    plain_fields ["entry", "identity", "target"] rfl (by decide) (by simp [hidentity])
  exact plain_fields ["configs", "match", "pc_namespace"] rfl (by decide)
    (by simp [hconfigs, hmatch])

theorem plain_policy (p : Policy) : Plain p.toJson :=
  plain_fields ["conflicts", "identity_mismatch", "unmatched_kernel", "unsupported_request"] rfl
    (by decide) (by simp)

theorem plain_canonical (id : String) (p : Policy) {ks : List Kernel} (h : ∀ k ∈ ks, k.Good v) :
    Plain (canonicalJson id p.toJson ks) := by
  have hkernels : Plain (.arr (ks.map Kernel.toJson)) :=
    plain_items fun k hk => plain_kernel (h k hk)
  exact plain_fields ["kernels", "plan_id", "policy", "schema"] rfl (by decide)
    (by simp [hkernels, plain_policy])

/-! ### Shallow -/

theorem shallow_mono {m n : ℕ} {j : Json} (h : Shallow m j) (hle : m ≤ n) : Shallow n j :=
  fun depth e he => (h depth e he).trans (by omega)

theorem shallow_items {α : Type} {n : ℕ} {encode : α → Json} {xs : List α}
    (h : ∀ x ∈ xs, Shallow n (encode x)) : Shallow (n + 1) (.arr (xs.map encode)) := by
  apply shallow_arr
  intro w hw
  obtain ⟨x, hx, rfl⟩ := List.mem_map.mp hw
  exact h x hx

theorem shallow_ints (xs : List ℕ) : Shallow 1 (ints xs) :=
  shallow_items fun n _ => shallow_int 0 n

theorem shallow_strs (xs : List String) : Shallow 1 (strs xs) :=
  shallow_items fun s _ => shallow_str 0 s

theorem shallow_selection {α : Type} {n : ℕ} {encode : List α → Json} (values : List α)
    (h : Shallow n (encode values)) : Shallow n (selectionJson encode values) := by
  unfold selectionJson
  split_ifs
  · exact shallow_str n _
  · exact h

theorem shallow_encode (o : Observation) : Shallow 2 (encode o) := by
  unfold encode
  cases o.kind <;> apply shallow_obj <;> simp [shallow_str, shallow_int, shallow_strs]

theorem shallow_point (p : Point) : Shallow 4 p.toJson := by
  have hobservations : Shallow 3 (.arr (p.observations.map encode)) :=
    shallow_items fun o _ => shallow_encode o
  apply shallow_obj
  simp [shallow_str, hobservations]

theorem shallow_config (c : Config) : Shallow 6 c.toJson := by
  have hbudget : Shallow 1 c.budget.toJson := by
    apply shallow_obj
    simp [shallow_str, shallow_int]
  have hlaunches : Shallow 2 c.launches.toJson := by
    unfold LaunchSelector.toJson
    split_ifs <;> apply shallow_obj <;> simp [shallow_str, shallow_ints]
  have hctas : Shallow 2 (selectionJson
      (fun ctas => .arr (ctas.map fun cta => ints cta.coordinates)) c.capture.ctas) :=
    shallow_selection _ (shallow_items fun cta _ => shallow_ints cta.coordinates)
  have hlanes := shallow_mono (shallow_selection c.capture.lanes (shallow_ints c.capture.lanes))
    (show 1 ≤ 2 by omega)
  have hwarps := shallow_mono (shallow_selection c.capture.warps (shallow_ints c.capture.warps))
    (show 1 ≤ 2 by omega)
  have hcapture : Shallow 3 c.capture.toJson := by
    apply shallow_obj
    simp [hctas, hlanes, hwarps]
  have hpoints : Shallow 5 (.arr (c.points.map Point.toJson)) :=
    shallow_items fun p _ => shallow_point p
  have hrequests := shallow_mono (shallow_strs c.requests) (show 1 ≤ 5 by omega)
  apply shallow_obj
  simp [shallow_str, shallow_mono hbudget, shallow_mono hlaunches, shallow_mono hcapture, hpoints,
    hrequests]

theorem shallow_kernel (k : Kernel) : Shallow 8 k.toJson := by
  have hconfigs : Shallow 7 (.arr (k.configs.map Config.toJson)) :=
    shallow_items fun c _ => shallow_config c
  have hidentity : Shallow 1
      (.obj [("kind", .str "cubin_sha256"), ("value", .str k.cubinSha256)]) := by
    apply shallow_obj
    simp [shallow_str]
  have hmatch : Shallow 2 (.obj [("entry", .str k.entry), ("identity",
      .obj [("kind", .str "cubin_sha256"), ("value", .str k.cubinSha256)]),
      ("target", .str k.target)]) := by
    apply shallow_obj
    simp [shallow_str, hidentity]
  apply shallow_obj
  simp [shallow_str, hconfigs, shallow_mono hmatch]

theorem shallow_policy (p : Policy) : Shallow 1 p.toJson := by
  apply shallow_obj
  simp [shallow_str]

theorem shallow_canonical (id : String) (p : Policy) (ks : List Kernel) :
    Shallow 64 (canonicalJson id p.toJson ks) := by
  have hkernels : Shallow 9 (.arr (ks.map Kernel.toJson)) :=
    shallow_items fun k _ => shallow_kernel k
  have h : Shallow 10 (canonicalJson id p.toJson ks) := by
    apply shallow_obj
    simp [shallow_str, hkernels, shallow_mono (shallow_policy p)]
  exact shallow_mono h (by omega)

end CuTracer.Plan
