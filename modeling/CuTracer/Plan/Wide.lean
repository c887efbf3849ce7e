import CuTracer.Plan.Canonical
import CuTracer.Plan.Text

/-! Plans with wide selections: one kernel whose configurations capture many CTAs and
warps at a single point. Such a plan is good whatever the widths are within the limits
of an array, and its nodes and its text are known from them. -/

namespace CuTracer.Plan

open List

variable {v : Vendor}

/-! ### Records with wide selections -/

def opcode : Observation := ⟨.opcode, [], 0, 0⟩

def opcodeBytes : String := "0011223344556677"

def opcodePoint (function : String) (pc : ℕ) : Point :=
  ⟨function, pc, opcodeBytes, .before, .reached, [opcode]⟩

/-- The first CTAs of the last dimension. -/
def ctaRow (n : ℕ) : List Cta := (List.range n).map fun i => toLex (0, toLex (0, i))

def wide (id : String) (ctas warps : ℕ) : Config :=
  ⟨id, ["sampling"], ⟨true, []⟩, ⟨ctaRow ctas, List.range warps, []⟩, ⟨1, 1⟩,
    [opcodePoint "kernel" 0]⟩

def cubin : String := "0123456789abcdef0123456789abcdef0123456789abcdef0123456789abcdef"

def oneKernel (configs : List Config) : Kernel := ⟨"kernel", "sm_90a", cubin, configs⟩

def recordJson (id : String) (p : Policy) (k : Kernel) : Json :=
  .obj [("kernel", k.toJson), ("plan_id", .str id), ("policy", p.toJson),
    ("schema", .str kRecordSchema)]

theorem isObservations_opcode : IsObservations v [opcode] where
  merged := ⟨⟨List.nodup_singleton _, fun o ho => by
    obtain rfl := List.mem_singleton.mp ho
    exact .opcode⟩, by decide⟩
  increasing := List.pairwise_singleton _ _

theorem isBytes_opcodeBytes : IsBytes opcodeBytes :=
  ⟨isText_literal rfl (by decide), by decide, by decide, by decide⟩

theorem good_opcodePoint {function : String} (hf : IsText function) {pc : ℕ} (hpc : pc < 2 ^ 64) :
    (opcodePoint function pc).Good v where
  function := hf
  pc := hpc
  bytes := isBytes_opcodeBytes
  observations := isObservations_opcode
  ne := List.cons_ne_nil _ _

theorem isSelection_singleton {α : Type} [LinearOrder α] {p : α → Prop} {x : α} (h : p x) :
    IsSelection p [x] :=
  ⟨List.cons_ne_nil _ _, show 1 ≤ kArrayMax by decide, by simpa using h,
    List.pairwise_singleton _ _⟩

/-- An increasing sequence within the limits is captured. -/
theorem isCapture_range {α : Type} [LinearOrder α] {p : α → Prop} {f : ℕ → α}
    (hf : StrictMono f) {n : ℕ} (hn : n ≤ kArrayMax) (hp : ∀ i < n, p (f i)) :
    IsCapture p ((List.range n).map f) := by
  rcases Nat.eq_zero_or_pos n with rfl | hpos
  · exact .inl rfl
  · refine .inr ⟨by simp; omega, by simpa using hn, ?_, ?_⟩
    · intro x hx
      obtain ⟨i, hi, rfl⟩ := List.mem_map.mp hx
      exact hp i (List.mem_range.mp hi)
    · exact List.pairwise_map.mpr (List.pairwise_lt_range.imp fun h => hf h)

theorem strictMono_ctaRow : StrictMono fun i : ℕ => (toLex (0, toLex (0, i)) : Cta) := by
  intro i j h
  exact Prod.Lex.right _ (Prod.Lex.right _ h)

theorem good_wide {id : String} (hid : IsText id) {ctas warps : ℕ} (hctas : ctas ≤ kArrayMax)
    (hwarps : warps ≤ kArrayMax) : (wide id ctas warps).Good v where
  fields :=
    { id := hid
      requests := isSelection_singleton (isText_literal rfl (by decide))
      launches := .inl rfl
      capture :=
        { ctas := isCapture_range strictMono_ctaRow hctas fun i hi n hn => by
            simp [Cta.coordinates] at hn
            rcases hn with rfl | rfl
            · exact Nat.zero_le _
            · exact le_trans (le_trans hi.le hctas) (by decide)
          warps := by
            have h := isCapture_range (p := (· ≤ kExactIntegerMax)) strictMono_id hwarps
              fun i hi => le_trans (le_trans hi.le hwarps) (by decide)
            rwa [List.map_id] at h
          lanes := .inl rfl }
      budget := ⟨show 1 ≤ 1 ∧ 1 ≤ kExactIntegerMax by decide,
        show 1 ≤ 1 ∧ 1 ≤ kExactIntegerMax by decide⟩ }
  points :=
    { good := by simpa [wide] using good_opcodePoint (isText_literal rfl (by decide)) (by decide)
      increasing := List.pairwise_singleton _ _
      ne := List.cons_ne_nil _ _
      length := show 1 ≤ kPointsMax by decide }

theorem isTarget_sm_90a : IsTarget "sm_90a" := by
  rw [IsTarget, target, text_str (isText_literal rfl (by decide)), ok_bind]
  rfl

theorem isText_cubin : IsText cubin := isText_literal rfl (by decide)

/-- Good configurations in the order of their identifiers make a kernel. -/
theorem normal_oneKernel {configs : List Config} (hne : configs ≠ [])
    (hgood : ∀ c ∈ configs, c.Good v) (hids : IncreasingBy Config.id configs) :
    (oneKernel configs).Normal v where
  good :=
    { fields := ⟨isText_literal (s := "kernel") rfl (by decide), isTarget_sm_90a, isText_cubin, rfl,
        show hex cubin.toList = true from rfl⟩
      ne := hne
      configs := hgood }
  increasing := hids

/-- Its configurations instrument one kind of instruction, so they agree. -/
theorem fits_oneKernel {configs : List Config} (hids : IncreasingBy Config.id configs)
    (hpoints : ∀ c ∈ configs, ∀ q ∈ c.points, q.expectedBytes = opcodeBytes) :
    ContentFits (content [oneKernel configs]) := by
  have hmem : ∀ a ∈ content [oneKernel configs], a.2 ∈ configs := by
    intro a ha
    obtain ⟨k, hk, -, hc⟩ := mem_content.mp ha
    obtain rfl := List.mem_singleton.mp hk
    exact hc
  constructor
  · intro a ha b hb _ p hp q hq _ _
    rw [hpoints _ (hmem a ha) p hp, hpoints _ (hmem b hb) q hq]
  · intro a ha b hb _ hid
    exact List.inj_on_of_nodup_map hids.nodup (hmem a ha) (hmem b hb) hid

theorem plain_record (id : String) (p : Policy) {k : Kernel} (hk : k.Good v) :
    (recordJson id p k).Plain :=
  plain_fields ["kernel", "plan_id", "policy", "schema"] rfl (by decide)
    (by simp [plain_kernel hk, plain_policy])

theorem shallow_record (id : String) (p : Policy) (k : Kernel) :
    (recordJson id p k).Shallow 64 := by
  have h : (recordJson id p k).Shallow 9 := by
    apply Json.shallow_obj
    simp [Json.shallow_str, shallow_kernel, shallow_mono (shallow_policy p)]
  exact shallow_mono h (by omega)

/-! ### Their nodes -/

open Json (nodes nodes_arr nodes_obj Short)

theorem nodes_str (s : String) : nodes (.str s) = 1 := rfl

theorem nodes_int (i : ℤ) : nodes (.int i) = 1 := rfl

theorem nodes_ints (xs : List ℕ) : nodes (ints xs) = xs.length + 2 := by
  simp [ints, nodes_arr, Function.comp_def, nodes_int]

theorem selectionJson_of_ne {α : Type} {encode : List α → Json} {values : List α}
    (h : values ≠ []) : selectionJson encode values = encode values := if_neg h

theorem selectionJson_nil {α : Type} (encode : List α → Json) :
    selectionJson encode [] = .str "all" := rfl

theorem nodes_wide (id : String) {ctas warps : ℕ} (hctas : 0 < ctas) (hwarps : 0 < warps) :
    nodes (wide id ctas warps).toJson = 55 + 5 * ctas + warps := by
  have hrow : ((ctaRow ctas).map fun c => c.coordinates.length + 2).sum = 5 * ctas := by
    show ((ctaRow ctas).map fun _ => 5).sum = 5 * ctas
    rw [List.map_const', List.sum_replicate, ctaRow, List.length_map, List.length_range]
    simp [mul_comm]
  have hctasne : ctaRow ctas ≠ [] := by simp [ctaRow]; omega
  have hwarpsne : List.range warps ≠ [] := by simp; omega
  simp only [Config.toJson, wide, CaptureSelector.toJson, selectionJson_of_ne hctasne,
    selectionJson_of_ne hwarpsne, selectionJson_nil, if_true, Budget.toJson, LaunchSelector.toJson, strs, Point.toJson,
    opcodePoint, opcode, encode, nodes_obj, nodes_arr, nodes_str, nodes_int, nodes_ints,
    List.map_cons, List.map_nil, List.map_map, List.sum_cons, List.sum_nil, Function.comp_def, hrow,
    List.length_range]
  omega

theorem nodes_oneKernel (configs : List Config) :
    nodes (oneKernel configs).toJson = 21 + (configs.map fun c => nodes c.toJson).sum := by
  simp only [Kernel.toJson, oneKernel, nodes_obj, nodes_arr, nodes_str, List.map_cons, List.map_nil,
    List.map_map, List.sum_cons, List.sum_nil, Function.comp_def]
  omega

theorem nodes_policy (p : Policy) : nodes p.toJson = 10 := rfl

theorem nodes_record (id : String) (p : Policy) (k : Kernel) :
    nodes (recordJson id p k) = 18 + nodes k.toJson := by
  simp only [recordJson, nodes_obj, nodes_str, nodes_policy, List.map_cons, List.map_nil,
    List.sum_cons, List.sum_nil]
  omega

/-- The canonical plan of a record has two nodes more, for the array of the kernels. -/
theorem nodes_canonical (id : String) (p : Policy) (k : Kernel) :
    nodes (canonicalJson id p.toJson [k]) = 20 + nodes k.toJson := by
  simp only [canonicalJson, nodes_obj, nodes_arr, nodes_str, nodes_policy, List.map_cons,
    List.map_nil, List.sum_cons, List.sum_nil]
  omega

/-! ### Their text -/

theorem short_nat {ascii : Bool} {n : ℕ} (h : n < 10 ^ 32) : Short ascii 32 (.int n) := by
  refine decide_eq_true ?_
  show (Json.write ascii (.int n)).length ≤ 32
  rw [Json.write_nat]
  exact (Nat.length_toDigits_le_iff (by decide) (by decide)).mpr h

theorem short_ints {ascii : Bool} {xs : List ℕ} (h : ∀ n ∈ xs, n < 10 ^ 32) :
    Short ascii 32 (ints xs) := by
  refine Json.short_arr.mpr fun j hj => ?_
  obtain ⟨n, hn, rfl⟩ := List.mem_map.mp hj
  exact short_nat (h n hn)

theorem short_selection {α : Type} {ascii : Bool} {encode : List α → Json} {values : List α}
    (h : Short ascii 32 (encode values)) : Short ascii 32 (selectionJson encode values) := by
  unfold selectionJson
  split_ifs
  · cases ascii <;> decide
  · exact h

theorem short_nil {n : ℕ} : Short true n (.obj []) := Json.short_obj.mpr (by simp)

theorem short_cons {n : ℕ} {key : List Char} {value : Json} {fields : List (String × Json)}
    (hkey : (key.flatMap (Json.escape true)).length + 2 ≤ n) (hvalue : Short true n value)
    (h : Short true n (.obj fields)) : Short true n (.obj ((String.ofList key, value) :: fields)) :=
  Json.short_obj.mpr (List.forall_mem_cons.mpr ⟨⟨Json.length_key_le hkey, hvalue⟩, Json.short_obj.mp h⟩)

theorem short_budget : Short true 32 (Budget.toJson ⟨1, 1⟩) :=
  short_cons (by decide) (by decide) <| short_cons (by decide) (by decide) <|
    short_cons (by decide) (Json.short_text (by decide)) short_nil

theorem short_capture {capture : CaptureSelector}
    (hctas : Short true 32 (selectionJson
      (fun ctas => .arr (ctas.map fun cta => ints cta.coordinates)) capture.ctas))
    (hlanes : Short true 32 (selectionJson ints capture.lanes))
    (hwarps : Short true 32 (selectionJson ints capture.warps)) : Short true 32 capture.toJson := by
  exact short_cons (by decide) hctas <| short_cons (by decide) hlanes <|
    short_cons (by decide) hwarps short_nil

theorem short_launches : Short true 32 (LaunchSelector.toJson ⟨true, []⟩) := by
  exact short_cons (by decide) (Json.short_text (by decide)) short_nil

theorem short_opcodePoint {n : ℕ} (hn : 32 ≤ n) {function : String} {pc : ℕ}
    (hfunction : Short true n (.str function)) (hpc : Short true n (.str (hexPc pc))) :
    Short true n (opcodePoint function pc).toJson := by
  have hobservations : Short true n (.arr ([opcode].map encode)) := by
    refine Json.short_arr.mpr fun j hj => ?_
    obtain rfl := List.mem_singleton.mp hj
    exact .mono hn (short_cons (by decide) (Json.short_text (by decide)) short_nil)
  have htext {s : List Char} (h : (s.flatMap (Json.escape true)).length + 2 ≤ 32) :
      Short true n (.str (String.ofList s)) := .mono hn (Json.short_text h)
  have hkey {s : List Char} (h : (s.flatMap (Json.escape true)).length + 2 ≤ 32) :
      (Json.writeString true (String.ofList s)).length ≤ n := (Json.length_key_le h).trans hn
  refine Json.short_obj.mpr ?_
  simp only [List.forall_mem_cons]
  exact ⟨⟨hkey (by decide), htext (by decide)⟩, ⟨hkey (by decide), hfunction⟩,
    ⟨hkey (by decide), hobservations⟩, ⟨hkey (by decide), hpc⟩, ⟨hkey (by decide), htext (by decide)⟩,
    ⟨hkey (by decide), htext (by decide)⟩, by simp⟩

theorem short_wide {id : String} (hid : (Json.writeString true id).length ≤ 32) {ctas warps : ℕ}
    (hctas : ctas ≤ kArrayMax) (hwarps : warps ≤ kArrayMax) :
    Short true 32 (wide id ctas warps).toJson := by
  have hlt : ∀ n, n ≤ kArrayMax → n < 10 ^ 32 := fun n hn => lt_of_le_of_lt hn (by decide)
  have hctas' : Short true 32 (selectionJson
      (fun ctas => .arr (ctas.map fun cta => ints cta.coordinates)) (ctaRow ctas)) := by
    refine short_selection (Json.short_arr.mpr fun j hj => ?_)
    obtain ⟨c, hc, rfl⟩ := List.mem_map.mp hj
    obtain ⟨i, hi, rfl⟩ := List.mem_map.mp hc
    refine short_ints fun n hn => ?_
    have hi := (List.mem_range.mp hi).le.trans hctas
    simp [Cta.coordinates] at hn
    rcases hn with rfl | rfl
    · decide
    · exact hlt _ hi
  have hwarps' : Short true 32 (selectionJson ints (List.range warps)) :=
    short_selection (short_ints fun n hn => hlt n ((List.mem_range.mp hn).le.trans hwarps))
  have hlanes : Short true 32 (selectionJson ints []) := Json.short_text (by decide)
  have hpoints : Short true 32 (.arr ([opcodePoint "kernel" 0].map Point.toJson)) := by
    refine Json.short_arr.mpr fun j hj => ?_
    obtain rfl := List.mem_singleton.mp hj
    exact short_opcodePoint le_rfl (Json.short_text (by decide)) (by decide)
  have hrequests : Short true 32 (strs ["sampling"]) := by
    refine Json.short_arr.mpr fun j hj => ?_
    obtain rfl := List.mem_singleton.mp hj
    exact Json.short_text (by decide)
  exact short_cons (by decide) short_budget <|
    short_cons (by decide) (short_capture hctas' hlanes hwarps') <|
    short_cons (by decide) (decide_eq_true hid) <| short_cons (by decide) short_launches <|
    short_cons (by decide) hpoints <| short_cons (by decide) hrequests short_nil

theorem short_policy (p : Policy) : Short true 32 p.toJson := by
  have herror : Short true 32 (.str "error") := Json.short_text (by decide)
  have hskip : Short true 32 (.str "skip") := Json.short_text (by decide)
  have hgap : Short true 32 (.str "report_gap") := Json.short_text (by decide)
  have hmismatch : Short true 32 (.str (if p.skipIdentityMismatch then "skip" else "error")) := by
    split_ifs
    · exact hskip
    · exact herror
  have hrequest : Short true 32 (.str (if p.reportUnsupportedAsGap then "report_gap" else "error")) := by
    split_ifs
    · exact hgap
    · exact herror
  exact short_cons (by decide) herror <| short_cons (by decide) hmismatch <|
    short_cons (by decide) hskip <| short_cons (by decide) hrequest short_nil

theorem short_match : Short true 66 (.obj [("entry", .str "kernel"),
    ("identity", .obj [("kind", .str "cubin_sha256"), ("value", .str cubin)]),
    ("target", .str "sm_90a")]) := by
  have hidentity : Short true 66 (.obj [("kind", .str "cubin_sha256"), ("value", .str cubin)]) := by
    exact short_cons (by decide) (Json.short_text (by decide)) <|
      short_cons (by decide) (Json.short_text (by decide)) short_nil
  exact short_cons (by decide) (Json.short_text (by decide)) <| short_cons (by decide) hidentity <|
    short_cons (by decide) (Json.short_text (by decide)) short_nil

theorem length_oneKernel_le {configs : List Config}
    (hshort : ∀ c ∈ configs, Short true 32 c.toJson) :
    (Json.write true (oneKernel configs).toJson).length ≤
      33 * (configs.map fun c => nodes c.toJson).sum + 1200 := by
  have hconfigs : Short true 32 (.arr (configs.map Config.toJson)) :=
    Json.short_arr.mpr fun j hj => by
      obtain ⟨c, hc, rfl⟩ := List.mem_map.mp hj
      exact hshort c hc
  have hconfigs := Json.length_write_le (by decide) hconfigs
  rw [nodes_arr, List.map_map] at hconfigs
  simp only [Function.comp_def] at hconfigs
  have hmatch := Json.length_write_le (by decide) short_match
  have hnodes : nodes (.obj [("entry", .str "kernel"),
      ("identity", .obj [("kind", .str "cubin_sha256"), ("value", .str cubin)]),
      ("target", .str "sm_90a")]) = 13 := rfl
  rw [hnodes] at hmatch
  have hkey₁ : (Json.writeString true "configs").length = 9 :=
    (Json.length_writeString_ofList true _).trans rfl
  have hkey₂ : (Json.writeString true "match").length = 7 :=
    (Json.length_writeString_ofList true _).trans rfl
  have hkey₃ : (Json.writeString true "pc_namespace").length = 14 :=
    (Json.length_writeString_ofList true _).trans rfl
  have hvalue : (Json.write true (.str "function_relative_bytes")).length = 25 :=
    (Json.length_writeString_ofList true _).trans rfl
  rw [Kernel.toJson, Json.length_write_obj _ (List.cons_ne_nil _ _)]
  simp only [List.map_cons, List.map_nil, List.sum_cons, List.sum_nil, Json.length_writeField,
    hkey₁, hkey₂, hkey₃, hvalue, oneKernel]
  omega

/-- The text of a plan with a kernel, or with an array of kernels. -/
theorem length_plan_le (p : Policy) {key schema : String} (value : Json)
    (hkey : (Json.writeString true key).length ≤ 9)
    (hschema : (Json.write true (.str schema)).length ≤ 34) :
    (Json.write true (.obj [(key, value), ("plan_id", .str "plan"), ("policy", p.toJson),
      ("schema", .str schema)])).length ≤ (Json.write true value).length + 498 := by
  have hpolicy := Json.length_write_le (by decide) (short_policy p)
  rw [nodes_policy] at hpolicy
  have hkey₂ : (Json.writeString true "plan_id").length = 9 :=
    (Json.length_writeString_ofList true _).trans rfl
  have hkey₃ : (Json.writeString true "policy").length = 8 :=
    (Json.length_writeString_ofList true _).trans rfl
  have hkey₄ : (Json.writeString true "schema").length = 8 :=
    (Json.length_writeString_ofList true _).trans rfl
  have hid : (Json.write true (.str "plan")).length = 6 :=
    (Json.length_writeString_ofList true _).trans rfl
  rw [Json.length_write_obj _ (List.cons_ne_nil _ _)]
  simp only [List.map_cons, List.map_nil, List.sum_cons, List.sum_nil, hid, Json.length_writeField,
    hkey₂, hkey₃, hkey₄]
  omega

theorem length_canonical_le (p : Policy) (k : Kernel) :
    (Json.write true (canonicalJson "plan" p.toJson [k])).length ≤
      (Json.write true k.toJson).length + 500 := by
  have hplan := @length_plan_le p "kernels" kSchema (.arr [k.toJson])
    ((Json.length_writeString_ofList true _).trans_le (by decide))
    ((Json.length_writeString_ofList true _).trans_le (by decide))
  rw [Json.length_write_arr _ (List.cons_ne_nil _ _)] at hplan
  exact hplan.trans (by simp)

theorem length_record_le (p : Policy) (k : Kernel) :
    (Json.write true (recordJson "plan" p k)).length ≤
      (Json.write true k.toJson).length + 500 :=
  (length_plan_le p k.toJson ((Json.length_writeString_ofList true _).trans_le (by decide))
    ((Json.length_writeString_ofList true _).trans_le (by decide))).trans (by omega)

/-! ### Two wide configurations -/

def twoWide (ctas warps ctas' warps' : ℕ) : Kernel :=
  oneKernel [wide "a" ctas warps, wide "b" ctas' warps']

def Width (n : ℕ) : Prop := 0 < n ∧ n ≤ kArrayMax

section TwoWide

variable {ctas warps ctas' warps' : ℕ}

theorem normal_twoWide (hctas : Width ctas) (hwarps : Width warps) (hctas' : Width ctas')
    (hwarps' : Width warps') : (twoWide ctas warps ctas' warps').Normal v := by
  refine normal_oneKernel (List.cons_ne_nil _ _) ?_ ?_
  · simp only [List.forall_mem_cons]
    exact ⟨good_wide (isText_literal rfl (by decide)) hctas.2 hwarps.2,
      good_wide (isText_literal rfl (by decide)) hctas'.2 hwarps'.2, by simp⟩
  · exact List.pairwise_pair.mpr (show "a" < "b" by decide)

theorem fits_twoWide : ContentFits (content [twoWide ctas warps ctas' warps']) := by
  refine fits_oneKernel (List.pairwise_pair.mpr (show "a" < "b" by decide)) ?_
  simp only [List.forall_mem_cons]
  refine ⟨?_, ?_, by simp⟩
  all_goals
    intro q hq
    obtain rfl := List.mem_singleton.mp hq
    rfl

theorem within_twoWide : (twoWide ctas warps ctas' warps').count.Within :=
  show 2 ≤ kConfigsMax ∧ 2 ≤ kPointsMax by decide

theorem nodes_twoWide (hctas : Width ctas) (hwarps : Width warps) (hctas' : Width ctas')
    (hwarps' : Width warps') : nodes (twoWide ctas warps ctas' warps').toJson =
      131 + 5 * ctas + warps + 5 * ctas' + warps' := by
  rw [twoWide, nodes_oneKernel]
  simp only [List.map_cons, List.map_nil, List.sum_cons, List.sum_nil,
    nodes_wide _ hctas.1 hwarps.1, nodes_wide _ hctas'.1 hwarps'.1]
  omega

theorem length_twoWide_le (hctas : Width ctas) (hwarps : Width warps) (hctas' : Width ctas')
    (hwarps' : Width warps') :
    (Json.write true (twoWide ctas warps ctas' warps').toJson).length ≤
      33 * (131 + 5 * ctas + warps + 5 * ctas' + warps') + 1200 := by
  have hshort : ∀ c ∈ [wide "a" ctas warps, wide "b" ctas' warps'], Short true 32 c.toJson := by
    simp only [List.forall_mem_cons]
    exact ⟨short_wide (by decide) hctas.2 hwarps.2, short_wide (by decide) hctas'.2 hwarps'.2,
      by simp⟩
  have hle := length_oneKernel_le hshort
  rw [← nodes_twoWide hctas hwarps hctas' hwarps', twoWide, nodes_oneKernel]
  omega

theorem length_canonical_twoWide_le (p : Policy) (hctas : Width ctas) (hwarps : Width warps)
    (hctas' : Width ctas') (hwarps' : Width warps') :
    (Json.write true (canonicalJson "plan" p.toJson [twoWide ctas warps ctas' warps'])).length ≤
      33 * (131 + 5 * ctas + warps + 5 * ctas' + warps') + 1700 := by
  have hkernel := length_twoWide_le hctas hwarps hctas' hwarps'
  have hcanonical := length_canonical_le p (twoWide ctas warps ctas' warps')
  omega

end TwoWide

end CuTracer.Plan
