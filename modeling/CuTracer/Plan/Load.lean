import CuTracer.Plan.Normalize

/-! Loading. A file has one document, or some records; each has a schema, the plan's
identifier and policy, and kernels. A file is loaded exactly if its documents agree on
the identifier and the policy, its kernels can be read within the limits, and what they
say has a normal form. -/

namespace CuTracer.Plan

variable {v : Vendor}

/-! ### The parser callback -/

theorem callback_nodes {s t : Scan} {es : List (ℕ × Json.ParseEvent)}
    (h : es.foldlM callback s = .ok t) (hs : s.nodes ≤ kNodesMax) :
    t.nodes = s.nodes + es.length ∧ t.nodes ≤ kNodesMax := by
  induction es generalizing s with
  | nil =>
    cases h
    exact ⟨rfl, hs⟩
  | cons e es ih =>
    rw [List.foldlM_cons] at h
    obtain ⟨u, hu, hrest⟩ := bind_ok h
    have hstep : u.nodes = s.nodes + 1 ∧ s.nodes + 1 ≤ kNodesMax := by
      unfold callback at hu
      split at hu
      · exact absurd hu fail_ne
      next hroom =>
      have hle : s.nodes + 1 ≤ kNodesMax := by omega
      split at hu
      · exact ⟨Except.ok.inj hu ▸ rfl, hle⟩
      · exact ⟨Except.ok.inj hu ▸ rfl, hle⟩
      · simp only at hu
        split at hu
        · exact absurd hu fail_ne
        · exact ⟨Except.ok.inj hu ▸ rfl, hle⟩
      · exact ⟨Except.ok.inj hu ▸ rfl, hle⟩
    obtain ⟨hnodes, hle⟩ := ih hrest (by omega)
    rw [List.length_cons]
    exact ⟨by omega, hle⟩

/-- The callback passes every document that is sorted, shallow and within the nodes. -/
theorem foldlM_callback {j : Json} (hj : j.Sorted) {depth n : ℕ} {objects : List (List String)}
    (hdepth : ∀ e ∈ j.events depth, e.1 ≤ 64) (hn : n + j.nodes ≤ kNodesMax) :
    (j.events depth).foldlM callback ⟨n, objects⟩ = .ok ⟨n + j.nodes, objects⟩ := by
  have hscalar : ∀ {n depth objects}, depth ≤ 64 → n + 1 ≤ kNodesMax →
      [(depth, Json.ParseEvent.value)].foldlM callback ⟨n, objects⟩ =
        .ok ⟨n + 1, objects⟩ := by
    intro n depth objects hd hn
    rw [List.foldlM_cons, callback, if_neg (by simp only; omega)]
    rfl
  induction j using Json.induct generalizing depth n objects with
  | null => exact hscalar (hdepth _ (List.mem_singleton_self _)) hn
  | bool b => exact hscalar (hdepth _ (List.mem_singleton_self _)) hn
  | int i => exact hscalar (hdepth _ (List.mem_singleton_self _)) hn
  | float bits => exact hscalar (hdepth _ (List.mem_singleton_self _)) hn
  | str s => exact hscalar (hdepth _ (List.mem_singleton_self _)) hn
  | arr items ih =>
    rw [Json.sorted_arr] at hj
    rw [Json.nodes_arr] at hn ⊢
    simp only [Json.events, Json.itemEvents_eq, List.mem_cons, List.mem_append, List.mem_flatMap,
      List.not_mem_nil, or_false] at hdepth
    have hd : depth ≤ 64 := hdepth (depth, .arrayStart) (.inl rfl)
    have hitems : ∀ (l : List Json) (m : ℕ), (∀ w ∈ l, w ∈ items) →
        m + (l.map Json.nodes).sum ≤ kNodesMax →
        (l.flatMap (Json.events (depth + 1))).foldlM callback ⟨m, objects⟩ =
          .ok ⟨m + (l.map Json.nodes).sum, objects⟩ := by
      intro l
      induction l with
      | nil => intro m _ _; rfl
      | cons w ws ihws =>
        intro m hmem hm
        obtain ⟨hw, hws⟩ := List.forall_mem_cons.mp hmem
        rw [List.map_cons, List.sum_cons] at hm ⊢
        rw [List.flatMap_cons, List.foldlM_append,
          ih w hw (hj w hw) (fun e he => hdepth e (.inr (.inl ⟨w, hw, he⟩))) (by omega), ok_bind,
          ihws _ hws (by omega), Nat.add_assoc]
    rw [Json.events, Json.itemEvents_eq, List.foldlM_cons, callback, if_neg (by simp only; omega)]
    simp only [ok_bind]
    rw [List.foldlM_append, hitems items _ (fun _ hw => hw) (by omega), ok_bind, List.foldlM_cons,
      callback, if_neg (by simp only; omega)]
    simp only [ok_bind, List.foldlM_nil, pure_ok, Except.ok.injEq, Scan.mk.injEq, and_true]
    omega
  | obj fields ih =>
    obtain ⟨hkeys, hj⟩ := Json.sorted_obj.mp hj
    rw [Json.nodes_obj] at hn ⊢
    simp only [Json.events, Json.fieldEvents_eq, List.mem_cons, List.mem_append, List.mem_flatMap,
      List.not_mem_nil, or_false] at hdepth
    have hd : depth ≤ 64 := hdepth (depth, .objectStart) (.inl rfl)
    have hfields : ∀ (l : List (String × Json)) (m : ℕ) (seen : List String),
        (∀ f ∈ l, f ∈ fields) → (l.map Prod.fst).Nodup → (∀ f ∈ l, f.1 ∉ seen) →
        m + (l.map fun f => f.2.nodes + 1).sum ≤ kNodesMax →
        ∃ seen', (l.flatMap fun f => (depth + 1, Json.ParseEvent.key f.1) ::
          f.2.events (depth + 1)).foldlM callback ⟨m, seen :: objects⟩ =
            .ok ⟨m + (l.map fun f => f.2.nodes + 1).sum, seen' :: objects⟩ := by
      intro l
      induction l with
      | nil => intro m seen _ _ _ _; exact ⟨seen, rfl⟩
      | cons f fs ihfs =>
        intro m seen hmem hnodup hseen hm
        obtain ⟨hf, hfs⟩ := List.forall_mem_cons.mp hmem
        obtain ⟨hfresh, hfresh'⟩ := List.forall_mem_cons.mp hseen
        rw [List.map_cons, List.nodup_cons] at hnodup
        rw [List.map_cons, List.sum_cons] at hm ⊢
        have hkey : depth + 1 ≤ 64 :=
          hdepth (depth + 1, .key f.1) (.inr (.inl ⟨f, hf, .inl rfl⟩))
        have hseen' : ∀ g ∈ fs, g.1 ∉ f.1 :: seen := by
          intro g hg hmem
          rcases List.mem_cons.mp hmem with heq | hmem
          · exact hnodup.1 (heq ▸ List.mem_map_of_mem hg)
          · exact hfresh' g hg hmem
        obtain ⟨seen', hrest⟩ := ihfs (m + 1 + f.2.nodes) (f.1 :: seen) hfs hnodup.2 hseen'
          (by omega)
        have hstep : callback ⟨m, seen :: objects⟩ (depth + 1, .key f.1) =
            .ok ⟨m + 1, (f.1 :: seen) :: objects⟩ := by
          rw [callback, if_neg (by simp only; omega)]
          exact if_neg hfresh
        refine ⟨seen', ?_⟩
        rw [List.flatMap_cons, List.cons_append, List.foldlM_cons, hstep, ok_bind,
          List.foldlM_append, ih f hf (hj f hf)
          (fun e he => hdepth e (.inr (.inl ⟨f, hf, .inr he⟩))) (by omega), ok_bind, hrest]
        simp only [Except.ok.injEq, Scan.mk.injEq, and_true]
        omega
    have hnodup : (fields.map Prod.fst).Nodup := hkeys.imp ne_of_lt
    obtain ⟨seen', hrun⟩ := hfields fields (n + 1) [] (fun _ hf => hf) hnodup
      (fun _ _ hmem => by cases hmem) (by omega)
    rw [Json.events, Json.fieldEvents_eq, List.foldlM_cons, callback, if_neg (by simp only; omega)]
    simp only [ok_bind]
    rw [List.foldlM_append, hrun, ok_bind, List.foldlM_cons, callback,
      if_neg (by simp only; omega)]
    simp only [ok_bind, List.foldlM_nil, pure_ok, Except.ok.injEq, Scan.mk.injEq, List.tail_cons,
      and_true]
    omega

/-! ### Documents -/

theorem parseJson_ok {bytes : List UInt8} {n n' : ℕ} {j : Json}
    (h : parseJson v bytes n = .ok (j, n')) : (v.sax bytes).2 = .ok j := by
  unfold parseJson at h
  split at h
  · cases h
  · split at h
    · cases h
    · next heq =>
      obtain ⟨rfl, -⟩ := Prod.mk.inj (Except.ok.inj h)
      exact heq

/-- The documents of a file: some, not too many, and each a result of the parser. -/
theorem documents_ok {bytes : List UInt8} {docs : List Json}
    (h : documents v bytes = .ok docs) :
    docs ≠ [] ∧ docs.length ≤ kKernelsMax ∧ ∀ d ∈ docs, ∃ line, (v.sax line).2 = .ok d := by
  unfold documents at h
  split at h
  · next heq =>
    cases h
    refine ⟨List.cons_ne_nil _ _, by simp [kKernelsMax], fun d hd => ⟨bytes, ?_⟩⟩
    rw [List.mem_singleton.mp hd]
    exact parseJson_ok heq
  · cases h
  · split at h
    · exact absurd h fail_ne
    · obtain ⟨⟨result, n⟩, hfold, h⟩ := bind_ok h
      simp only at h
      split at h
      · exact absurd h fail_ne
      next hne =>
      cases h
      have hrecords := foldlM_induction
        (P := fun s : List Json × ℕ => s.1.length ≤ kKernelsMax ∧
          ∀ d ∈ s.1, ∃ line, (v.sax line).2 = .ok d)
        hfold ⟨Nat.zero_le _, fun _ hd => by cases hd⟩ ?_
      · exact ⟨hne, hrecords⟩
      · rintro s line t - ⟨hlen, hall⟩ hstep
        unfold addRecord at hstep
        split at hstep
        · cases hstep
          exact ⟨hlen, hall⟩
        split at hstep
        · exact absurd hstep fail_ne
        next hroom =>
        split at hstep
        · cases hstep
        · exact absurd hstep fail_ne
        · next heq =>
          cases hstep
          refine ⟨by rw [List.length_append, List.length_singleton]; omega, ?_⟩
          intro d hd
          rcases List.mem_append.mp hd with hd | hd
          · exact hall d hd
          · rw [List.mem_singleton.mp hd]
            exact ⟨line, parseJson_ok heq⟩

theorem parseJson_dump (hv : v.Lawful) (ascii : Bool) {j : Json} (hj : j.Plain)
    (hshallow : j.Shallow 64) {n : ℕ} (hnodes : n + j.nodes ≤ kNodesMax) :
    parseJson v (utf8 (v.dump ascii j)) n = .ok (j, n + j.nodes) := by
  have hrun : (j.events 0).foldlM callback ⟨n, []⟩ = .ok ⟨n + j.nodes, []⟩ :=
    foldlM_callback hj.sorted (fun e he => by simpa using hshallow 0 e he) hnodes
  simp only [parseJson, hv.sax_dump ascii j hj, hrun]

/-- The text of a plain and shallow document within the nodes is that one document. -/
theorem documents_dump (hv : v.Lawful) (ascii : Bool) {j : Json} (hj : j.Plain)
    (hshallow : j.Shallow 64) (hnodes : j.nodes ≤ kNodesMax) :
    documents v (utf8 (v.dump ascii j)) = .ok [j] := by
  rw [documents, parseJson_dump hv ascii hj hshallow (by rwa [Nat.zero_add])]

/-- A document with too many nodes is refused. -/
theorem documents_full (hv : v.Lawful) (ascii : Bool) {j : Json} (hj : j.Plain)
    (hnodes : kNodesMax < j.nodes) {docs : List Json} :
    documents v (utf8 (v.dump ascii j)) ≠ .ok docs := by
  intro h
  have hrun : ∀ t, (j.events 0).foldlM callback ⟨0, []⟩ ≠ .ok t := by
    intro t ht
    obtain ⟨hlen, hle⟩ := callback_nodes ht (Nat.zero_le _)
    rw [Json.length_events] at hlen
    simp only at hlen
    omega
  unfold documents parseJson at h
  rw [hv.sax_dump ascii j hj] at h
  cases hcase : (j.events 0).foldlM callback ⟨0, []⟩ with
  | error e => simp [hcase] at h
  | ok t => exact hrun t hcase

/-! ### The header -/

def Policy.toJson (p : Policy) : Json :=
  .obj [("conflicts", .str "error"),
    ("identity_mismatch", .str (if p.skipIdentityMismatch then "skip" else "error")),
    ("unmatched_kernel", .str "skip"),
    ("unsupported_request", .str (if p.reportUnsupportedAsGap then "report_gap" else "error"))]

theorem keys_ok {j : Json} {expected : List String} (h : keys j expected = .ok ()) :
    ∃ fields, j = .obj fields ∧ fields.length = expected.length ∧
      ∀ key ∈ expected, key ∈ fields.map Prod.fst := by
  cases j with
  | obj fields =>
    rw [keys] at h
    split at h
    · exact absurd h fail_ne
    next hlen =>
    rw [not_not] at hlen
    refine ⟨fields, rfl, hlen, ?_⟩
    clear hlen
    induction expected with
    | nil => exact fun _ hkey => by cases hkey
    | cons key rest ih =>
      rw [List.forM_eq_forM, List.forM_cons] at h
      obtain ⟨_, hkey, hrest⟩ := bind_ok h
      refine List.forall_mem_cons.mpr ⟨?_, ih hrest⟩
      split at hkey
      · next hsome =>
        obtain ⟨w, hw⟩ := Option.isSome_iff_exists.mp hsome
        exact List.mem_map_of_mem (f := Prod.fst) (mem_of_field hw)
      · exact absurd hkey fail_ne
  | _ => exact absurd h fail_ne

/-- A sorted object has its expected keys in order. -/
theorem keys_sorted {j : Json} (hj : j.Sorted) {expected names : List String}
    (h : keys j expected = .ok ()) (hnames : expected.Perm names)
    (hincreasing : names.Pairwise (· < ·)) :
    ∃ fields, j = .obj fields ∧ fields.map Prod.fst = names := by
  obtain ⟨fields, rfl, hlen, hkeys⟩ := keys_ok h
  refine ⟨fields, rfl, ?_⟩
  have hsorted := (Json.sorted_obj.mp hj).1
  have hsub : names.Subperm (fields.map Prod.fst) :=
    List.subperm_of_subset (hincreasing.imp ne_of_lt) fun key hkey =>
      hkeys key (hnames.mem_iff.mpr hkey)
  have hperm := hsub.perm_of_length_le (by rw [List.length_map, hlen, hnames.length_eq])
  exact (List.Perm.eq_of_pairwise (fun _ _ _ _ hab hba => absurd hab (lt_asymm hba)) hincreasing
    hsorted hperm).symm

theorem isText_policy (p : Policy) :
    IsText (if p.skipIdentityMismatch then "skip" else "error") ∧
      IsText (if p.reportUnsupportedAsGap then "report_gap" else "error") := by
  constructor <;> split <;> exact isText_literal rfl (by decide)

theorem policy_toJson (p : Policy) : policy p.toJson = .ok p := by
  have hkeys : keys p.toJson ["unmatched_kernel", "unsupported_request", "identity_mismatch",
      "conflicts"] = .ok () :=
    keys_obj ["conflicts", "identity_mismatch", "unmatched_kernel", "unsupported_request"] rfl
      (by decide)
  have hskip : constant (.str "skip") "skip" = .ok () :=
    constant_ok.mpr ⟨rfl, isText_literal rfl (by decide)⟩
  have herror : constant (.str "error") "error" = .ok () :=
    constant_ok.mpr ⟨rfl, isText_literal rfl (by decide)⟩
  rw [policy, hkeys, ok_bind]
  simp only [Policy.toJson, member_obj_cons, String.reduceEq, if_true, if_false, ok_bind, hskip,
    herror, text_str (isText_policy p).1, text_str (isText_policy p).2]
  obtain ⟨gap, skip⟩ := p
  cases gap <;> cases skip <;> simp

/-- A policy that was read determines its JSON. -/
theorem eq_toJson_of_policy {header : Json} (hheader : header.Sorted) {p : Policy}
    (h : policy header = .ok p) : header = p.toJson := by
  obtain ⟨_, hkeys, h⟩ := bind_ok h
  have hincreasing : ["conflicts", "identity_mismatch", "unmatched_kernel",
      "unsupported_request"].Pairwise (· < ·) := by decide
  obtain ⟨fields, rfl, hfields⟩ := keys_sorted hheader hkeys (by decide) hincreasing
  obtain ⟨a, b, c, d, rfl⟩ : ∃ a b c d, fields = [("conflicts", a), ("identity_mismatch", b),
      ("unmatched_kernel", c), ("unsupported_request", d)] := by
    rcases fields with _ | ⟨⟨k₁, a⟩, _ | ⟨⟨k₂, b⟩, _ | ⟨⟨k₃, c⟩, _ | ⟨⟨k₄, d⟩, _ | ⟨f, fs⟩⟩⟩⟩⟩
    all_goals simp only [List.map_cons, List.map_nil, List.cons.injEq, reduceCtorEq, and_false] at hfields
    obtain ⟨rfl, rfl, rfl, rfl, -⟩ := hfields
    exact ⟨a, b, c, d, rfl⟩
  simp only [member_obj_cons, String.reduceEq, if_true, if_false, ok_bind] at h
  obtain ⟨_, hc, h⟩ := bind_ok h
  obtain ⟨_, ha, h⟩ := bind_ok h
  obtain ⟨unsupported, hd, h⟩ := bind_ok h
  split at h
  · exact absurd h fail_ne
  next hunsupported =>
  obtain ⟨mismatch, hb, h⟩ := bind_ok h
  split at h
  · exact absurd h fail_ne
  next hmismatch =>
  cases h
  rw [(constant_ok.mp hc).1, (constant_ok.mp ha).1, (text_ok.mp hd).1, (text_ok.mp hb).1,
    Policy.toJson]
  push Not at hunsupported hmismatch
  by_cases h₁ : unsupported = "report_gap"
  · by_cases h₂ : mismatch = "skip"
    · simp [h₁, h₂]
    · have h₃ : mismatch = "error" := by
        by_contra h₃
        exact h₂ (hmismatch h₃)
      simp [h₁, h₃]
  · have h₄ : unsupported = "error" := by
      by_contra h₄
      exact h₁ (hunsupported h₄)
    by_cases h₂ : mismatch = "skip"
    · simp [h₄, h₂]
    · have h₃ : mismatch = "error" := by
        by_contra h₃
        exact h₂ (hmismatch h₃)
      simp [h₄, h₃]

/-! ### Kernels of the documents -/

/-- A document of a file of `docs` documents has an identifier, a policy and kernels. -/
structure IsDocument (docs : ℕ) (id : String) (header : Json) (doc : Json) (items : List Json) :
    Prop where
  kernels : documentKernels docs doc = .ok items
  id : ∃ w, member doc "plan_id" = .ok w ∧ text w = .ok id
  header : member doc "policy" = .ok header

def planDocument (id policy : Json) (kernels : List Json) : Json :=
  .obj [("kernels", .arr kernels), ("plan_id", id), ("policy", policy), ("schema", .str kSchema)]

def planRecord (id policy kernel : Json) : Json :=
  .obj [("kernel", kernel), ("plan_id", id), ("policy", policy), ("schema", .str kRecordSchema)]

theorem isDocument_planDocument {id : String} {idJson policy : Json} {kernels : List Json}
    (hid : text idJson = .ok id) (hne : kernels ≠ []) (hlen : kernels.length ≤ kKernelsMax) :
    IsDocument 1 id policy (planDocument idJson policy kernels) kernels := by
  have hkeys : keys (planDocument idJson policy kernels)
      ["schema", "plan_id", "policy", "kernels"] = .ok () :=
    keys_obj ["kernels", "plan_id", "policy", "schema"] rfl (by decide)
  have hschema : text (.str kSchema) = .ok kSchema := text_str (isText_literal rfl (by decide))
  have hcontains : contains (planDocument idJson policy kernels) "schema" = true := by
    simp [planDocument, contains_obj_cons]
  have hmember : member (planDocument idJson policy kernels) "schema" = .ok (.str kSchema) := by
    simp only [planDocument, member_obj_cons, String.reduceEq, if_true, if_false]
  refine ⟨?_, ⟨idJson, ?_, hid⟩, ?_⟩
  · rw [documentKernels, if_neg (by simp [hcontains]), hmember, ok_bind, hschema, ok_bind,
      if_pos rfl, hkeys, ok_bind, if_neg (by simp)]
    simp only [planDocument, member_obj_cons, if_true, ok_bind]
    exact array_ok.mpr ⟨rfl, hne, hlen⟩
  · simp only [planDocument, member_obj_cons, String.reduceEq, if_true, if_false]
  · simp only [planDocument, member_obj_cons, String.reduceEq, if_true, if_false]

theorem isDocument_planRecord {n : ℕ} {id : String} {idJson policy kernel : Json} (hid : text idJson = .ok id) :
    IsDocument n id policy (planRecord idJson policy kernel) [kernel] := by
  have hkeys : keys (planRecord idJson policy kernel)
      ["schema", "plan_id", "policy", "kernel"] = .ok () :=
    keys_obj ["kernel", "plan_id", "policy", "schema"] rfl (by decide)
  have hschema : text (.str kRecordSchema) = .ok kRecordSchema :=
    text_str (isText_literal rfl (by decide))
  have hcontains : contains (planRecord idJson policy kernel) "schema" = true := by
    simp [planRecord, contains_obj_cons]
  have hmember : member (planRecord idJson policy kernel) "schema" =
      .ok (.str kRecordSchema) := by
    simp only [planRecord, member_obj_cons, String.reduceEq, if_true, if_false]
  have hne : kRecordSchema ≠ kSchema := by decide
  refine ⟨?_, ⟨idJson, ?_, hid⟩, ?_⟩
  · rw [documentKernels, if_neg (by simp [hcontains]), hmember, ok_bind, hschema, ok_bind,
      if_neg hne, if_pos rfl, hkeys, ok_bind]
    simp only [planRecord, member_obj_cons, if_true, ok_bind]
    rfl
  · simp only [planRecord, member_obj_cons, String.reduceEq, if_true, if_false]
  · simp only [planRecord, member_obj_cons, String.reduceEq, if_true, if_false]

theorem addKernelJson_ok {ks ks' : List Kernel} {c c' : Counts} {item : Json} (hc : c.Within) :
    addKernelJson v (ks, c) item = .ok (ks', c') ↔
      ∃ k, ReadsKernel v item k ∧ ks' = ks ++ [k] ∧ c' = c + kernelCount item ∧ c'.Within := by
  constructor
  · intro h
    obtain ⟨⟨k, d⟩, hk, h⟩ := bind_ok h
    cases h
    obtain ⟨hread, rfl, hwithin⟩ := (kernel_iff hc).mp hk
    exact ⟨k, hread, rfl, rfl, hwithin⟩
  · rintro ⟨k, hread, rfl, rfl, hwithin⟩
    rw [addKernelJson, (kernel_iff hc).mpr ⟨hread, rfl, hwithin⟩]
    rfl

/-- The loader after some documents with one identifier and policy. -/
structure IsLoading (s : Loading) : Prop where
  id : IsText s.id
  policy : policy s.header = .ok s.policy
  within : s.counts.Within

theorem foldlM_kernels {s : Loading} (hs : s.counts.Within) {items : List Json}
    {ks : List Kernel} {c : Counts} :
    items.foldlM (addKernelJson v) (s.kernels, s.counts) = .ok (ks, c) ↔
      ∃ ls, List.Forall₂ (ReadsKernel v) items ls ∧ ks = s.kernels ++ ls ∧
        c = s.counts + (items.map kernelCount).sum ∧ c.Within :=
  foldlM_counted Counts.Within.of_add addKernelJson_ok hs

/-- A further document has the same identifier and policy, and adds its kernels. -/
theorem addDocument_next {docs : ℕ} {s t : Loading} {doc : Json} (hs : IsLoading s) :
    addDocument v docs s doc = .ok t ↔
      ∃ items ks, IsDocument docs s.id s.header doc items ∧
        List.Forall₂ (ReadsKernel v) items ks ∧ t.counts.Within ∧
        t = { s with kernels := s.kernels ++ ks,
                     counts := s.counts + (items.map kernelCount).sum } := by
  constructor
  · intro h
    obtain ⟨items, hitems, h⟩ := bind_ok h
    obtain ⟨w, hw, h⟩ := bind_ok h
    obtain ⟨id, hid, h⟩ := bind_ok h
    obtain ⟨header, hheader, h⟩ := bind_ok h
    obtain ⟨p, hp, h⟩ := bind_ok h
    split at h
    · exact absurd h fail_ne
    next hsame =>
    obtain ⟨⟨ks, c⟩, hfold, h⟩ := bind_ok h
    push Not at hsame
    obtain ⟨rfl, rfl⟩ := hsame hs.id.ne
    simp only [if_neg hs.id.ne] at h
    cases h
    obtain ⟨ls, hls, rfl, rfl, hwithin⟩ := (foldlM_kernels hs.within).mp hfold
    exact ⟨items, ls, ⟨hitems, ⟨w, hw, hid⟩, hheader⟩, hls, hwithin, rfl⟩
  · rintro ⟨items, ks, ⟨hitems, ⟨w, hw, hid⟩, hheader⟩, hks, hwithin, rfl⟩
    have hfold := (foldlM_kernels hs.within).mpr ⟨ks, hks, rfl, rfl, hwithin⟩
    have hsame : ¬(s.id ≠ "" ∧ (s.id ≠ s.id ∨ s.header ≠ s.header)) := by simp
    rw [addDocument, hitems, ok_bind, hw, ok_bind, hid, ok_bind, hheader, ok_bind, hs.policy,
      ok_bind, if_neg hsame, hfold, ok_bind]
    simp only [if_neg hs.id.ne]
    rfl

/-- The first document gives the identifier and the policy. -/
theorem addDocument_first {docs : ℕ} {s t : Loading} {doc : Json} (hs : s.counts.Within)
    (hid : s.id = "") :
    addDocument v docs s doc = .ok t ↔
      ∃ items ks, IsDocument docs t.id t.header doc items ∧ IsLoading t ∧
        List.Forall₂ (ReadsKernel v) items ks ∧ t.kernels = s.kernels ++ ks ∧
        t.counts = s.counts + (items.map kernelCount).sum := by
  constructor
  · intro h
    obtain ⟨items, hitems, h⟩ := bind_ok h
    obtain ⟨w, hw, h⟩ := bind_ok h
    obtain ⟨id, hid', h⟩ := bind_ok h
    obtain ⟨header, hheader, h⟩ := bind_ok h
    obtain ⟨p, hp, h⟩ := bind_ok h
    split at h
    · exact absurd h fail_ne
    obtain ⟨⟨ks, c⟩, hfold, h⟩ := bind_ok h
    cases h
    obtain ⟨ls, hls, rfl, rfl, hwithin⟩ := (foldlM_kernels hs).mp hfold
    exact ⟨items, ls, ⟨hitems, ⟨w, hw, hid'⟩, hheader⟩, ⟨(text_ok.mp hid').2, hp, hwithin⟩, hls,
      rfl, rfl⟩
  · rintro ⟨items, ks, ⟨hitems, ⟨w, hw, hid'⟩, hheader⟩, ht, hks, hkernels, hcounts⟩
    have hwithin := ht.within
    obtain ⟨id, header, p, kernels, counts⟩ := t
    simp only at hid' hheader hkernels hcounts hwithin
    subst hkernels hcounts
    have hfold := (foldlM_kernels hs).mpr ⟨ks, hks, rfl, rfl, hwithin⟩
    have hsame : ¬(s.id ≠ "" ∧ (s.id ≠ id ∨ s.header ≠ header)) := fun h => h.1 hid
    have hpolicy : policy header = .ok p := ht.policy
    rw [addDocument, hitems, ok_bind, hw, ok_bind, hid', ok_bind, hheader, ok_bind, hpolicy,
      ok_bind, if_neg hsame, hfold, ok_bind]
    simp only [if_pos hid]
    rfl

/-- Documents with one identifier and policy, their kernels one after another. -/
def AreDocuments (n : ℕ) (id : String) (header : Json) (docs items : List Json) : Prop :=
  ∃ parts, List.Forall₂ (IsDocument n id header) docs parts ∧ items = parts.flatten

theorem foldlM_addDocument {n : ℕ} {docs : List Json} {s t : Loading} (hs : IsLoading s) :
    docs.foldlM (addDocument v n) s = .ok t ↔
      ∃ items ks, AreDocuments n s.id s.header docs items ∧
        List.Forall₂ (ReadsKernel v) items ks ∧ t.counts.Within ∧
        t = { s with kernels := s.kernels ++ ks,
                     counts := s.counts + (items.map kernelCount).sum } := by
  induction docs generalizing s t with
  | nil =>
    constructor
    · intro h
      cases h
      exact ⟨[], [], ⟨[], .nil, rfl⟩, .nil, hs.within, by simp⟩
    · rintro ⟨items, ks, ⟨parts, hparts, rfl⟩, hks, -, rfl⟩
      cases hparts
      cases hks
      simp
  | cons doc docs ih =>
    rw [List.foldlM_cons]
    constructor
    · intro h
      obtain ⟨u, hu, hrest⟩ := bind_ok h
      obtain ⟨items, ks, hdoc, hks, hwithin, rfl⟩ := (addDocument_next hs).mp hu
      have hu : IsLoading { s with kernels := s.kernels ++ ks,
                                   counts := s.counts + (items.map kernelCount).sum } :=
        ⟨hs.id, hs.policy, hwithin⟩
      obtain ⟨items', ks', ⟨parts, hparts, rfl⟩, hks', hwithin', rfl⟩ := (ih hu).mp hrest
      refine ⟨items ++ parts.flatten, ks ++ ks', ⟨items :: parts, .cons hdoc hparts, rfl⟩,
        List.rel_append hks hks', hwithin', ?_⟩
      simp only [List.append_assoc, List.map_append, List.sum_append, add_assoc]
    · rintro ⟨items, ks, ⟨parts, hparts, rfl⟩, hks, hwithin, rfl⟩
      cases hparts with
      | @cons _ part _ parts hdoc hparts =>
        rw [List.flatten_cons] at hks
        obtain ⟨ks₁, ks₂, hks₁, hks₂, rfl⟩ := forall₂_append_left hks
        have hcounts : s.counts + ((part :: parts).flatten.map kernelCount).sum =
            s.counts + (part.map kernelCount).sum + (parts.flatten.map kernelCount).sum := by
          rw [List.flatten_cons, List.map_append, List.sum_append, add_assoc]
        simp only [hcounts] at hwithin ⊢
        have hfirst : (s.counts + (part.map kernelCount).sum).Within :=
          Counts.Within.of_add hwithin
        have hu : IsLoading { s with kernels := s.kernels ++ ks₁,
                                     counts := s.counts + (part.map kernelCount).sum } :=
          ⟨hs.id, hs.policy, hfirst⟩
        rw [(addDocument_next hs).mpr ⟨part, ks₁, hdoc, hks₁, hfirst, rfl⟩, ok_bind]
        refine (ih hu).mpr ⟨parts.flatten, ks₂, ⟨parts, hparts, rfl⟩, hks₂, hwithin, ?_⟩
        rw [List.append_assoc]

/-- A file is loaded exactly if its documents agree and its kernels are read within the
limits and have a normal form. -/
theorem loadDocuments_iff {docs : List Json} (hdocs : docs ≠ []) {loaded : Loading}
    {rs : List Kernel} :
    loadDocuments v docs = .ok (loaded, rs) ↔
      IsLoading loaded ∧ normalize loaded.kernels = .ok rs ∧ ∃ items,
        AreDocuments docs.length loaded.id loaded.header docs items ∧
          List.Forall₂ (ReadsKernel v) items loaded.kernels ∧
            loaded.counts = (items.map kernelCount).sum := by
  obtain ⟨doc, rest, rfl⟩ := List.exists_cons_of_ne_nil hdocs
  constructor
  · intro h
    obtain ⟨t, ht, h⟩ := bind_ok h
    obtain ⟨ls, hls, h⟩ := bind_ok h
    cases h
    rw [List.foldlM_cons] at ht
    obtain ⟨u, hu, hrest⟩ := bind_ok ht
    obtain ⟨items, ks, hdoc, hu, hks, hkernels, hcounts⟩ :=
      (addDocument_first within_zero rfl).mp hu
    obtain ⟨items', ks', ⟨parts, hparts, rfl⟩, hks', hwithin, rfl⟩ :=
      (foldlM_addDocument hu).mp hrest
    simp only [List.nil_append] at hkernels
    refine ⟨⟨hu.id, hu.policy, hwithin⟩, hls, items ++ parts.flatten,
      ⟨items :: parts, .cons hdoc hparts, rfl⟩, ?_, ?_⟩
    · simp only [hkernels]
      exact List.rel_append hks hks'
    · simp [hcounts]
  · rintro ⟨hloaded, hrs, items, ⟨parts, hparts, rfl⟩, hks, hcounts⟩
    cases hparts with
    | @cons _ part _ parts hdoc hparts =>
      rw [List.flatten_cons] at hks hcounts
      obtain ⟨ks₁, ks₂, hks₁, hks₂, hkernels⟩ := forall₂_append_left hks
      rw [List.map_append, List.sum_append] at hcounts
      have hwithin := hloaded.within
      rw [hcounts] at hwithin
      have hfirst := Counts.Within.of_add hwithin
      have hu : IsLoading ⟨loaded.id, loaded.header, loaded.policy, ks₁,
          (part.map kernelCount).sum⟩ := ⟨hloaded.id, hloaded.policy, hfirst⟩
      have hstep : addDocument v (doc :: rest).length
          ⟨"", .null, ⟨false, false⟩, [], (0, 0)⟩ doc =
          .ok ⟨loaded.id, loaded.header, loaded.policy, ks₁, (part.map kernelCount).sum⟩ :=
        (addDocument_first within_zero rfl).mpr
          ⟨part, ks₁, hdoc, hu, hks₁, rfl, (zero_add _).symm⟩
      have hrest : rest.foldlM (addDocument v (doc :: rest).length)
          ⟨loaded.id, loaded.header, loaded.policy, ks₁, (part.map kernelCount).sum⟩ =
          .ok loaded :=
        (foldlM_addDocument hu).mpr ⟨parts.flatten, ks₂, ⟨parts, hparts, rfl⟩, hks₂,
          hloaded.within, by rw [← hkernels, ← hcounts]⟩
      rw [loadDocuments, List.foldlM_cons, hstep, ok_bind, hrest, ok_bind, hrs]
      rfl

end CuTracer.Plan
