import CuTracer.Plan.Canonical
import CuTracer.Plan.Wide
import Mathlib.Algebra.Order.BigOperators.Group.List
import Mathlib.Algebra.Order.Monoid.Prod

/-! The canonical plan is a fixed point of the loader. It has no more kernels,
configurations or points than the file it came from, so the limits on these hold of it;
the limit on JSON nodes is the one that it can exceed. -/

namespace CuTracer.Plan

variable {v : Vendor}

/-! ### Counting what is said -/

def pairs (ks : List Kernel) : List (KernelKey × Config) :=
  ks.flatMap fun k => k.configs.map fun c => (k.key, c)

variable {ks : List Kernel}

theorem mem_pairs {p : KernelKey × Config} : p ∈ pairs ks ↔ p ∈ content ks := by
  simp only [pairs, List.mem_flatMap, List.mem_map]
  constructor
  · rintro ⟨k, hk, c, hc, rfl⟩
    exact ⟨k, hk, rfl, hc⟩
  · rintro ⟨k, hk, hkey, hc⟩
    exact ⟨k, hk, p.2, hc, Prod.ext hkey.symm rfl⟩

theorem IsKernels.nodup_pairs (h : IsKernels v ks) : (pairs ks).Nodup := by
  unfold pairs
  rw [List.nodup_flatMap]
  constructor
  · intro k hk
    have hconfigs := List.Nodup.of_map _ (h.normal k hk).increasing.nodup
    exact hconfigs.map fun c d heq => (Prod.mk.inj heq).2
  · refine List.Pairwise.imp ?_ h.increasing
    intro k l hlt p hp hp'
    obtain ⟨c, -, rfl⟩ := List.mem_map.mp hp
    obtain ⟨d, -, heq⟩ := List.mem_map.mp hp'
    exact absurd (Prod.mk.inj heq).1.symm (ne_of_lt hlt)

theorem sum_pairs (ks : List Kernel) :
    ((pairs ks).map fun p => ((1, p.2.points.length) : Counts)).sum =
      (ks.map Kernel.count).sum := by
  induction ks with
  | nil => rfl
  | cons k ks ih =>
    rw [pairs, List.flatMap_cons, List.map_append, List.sum_append, List.map_cons, List.sum_cons,
      List.map_map]
    exact congrArg₂ _ rfl ih

theorem Subperm.sum_le {α : Type} {f : α → Counts} {xs ys : List α} (h : xs.Subperm ys) :
    (xs.map f).sum ≤ (ys.map f).sum := by
  obtain ⟨zs, hperm, hsub⟩ := h
  rw [← (hperm.map f).sum_eq]
  exact (hsub.map f).sum_le_sum fun _ _ => ⟨Nat.zero_le _, Nat.zero_le _⟩

theorem Counts.Within.mono {a b : Counts} (h : Counts.Within b) (hle : a ≤ b) : Counts.Within a :=
  ⟨hle.1.trans h.1, hle.2.trans h.2⟩

/-- A normal form has no more configurations and points than what it came from. -/
theorem sum_count_le {ks rs : List Kernel} (hrs : IsKernels v rs)
    (h : content rs = content ks) : (rs.map Kernel.count).sum ≤ (ks.map Kernel.count).sum := by
  rw [← sum_pairs, ← sum_pairs]
  apply Subperm.sum_le
  exact List.subperm_of_subset hrs.nodup_pairs fun p hp =>
    mem_pairs.mpr (h ▸ mem_pairs.mp hp)

/-- Nor more kernels. -/
theorem length_le_of_content {ks rs : List Kernel} (hrs : IsKernels v rs)
    (h : content rs = content ks) : rs.length ≤ ks.length := by
  have hsub : (rs.map Kernel.key).Subperm (ks.map Kernel.key) := by
    apply List.subperm_of_subset hrs.increasing.nodup
    intro key hkey
    obtain ⟨k, hk, rfl⟩ := List.mem_map.mp hkey
    obtain ⟨c, hc⟩ := List.exists_mem_of_ne_nil _ (hrs.good k hk).ne
    have hmem : (k.key, c) ∈ content rs := ⟨k, hk, rfl, hc⟩
    rw [h] at hmem
    obtain ⟨l, hl, hkey, -⟩ := hmem
    exact List.mem_map.mpr ⟨l, hl, hkey.symm⟩
  simpa using hsub.length_le

theorem count_le_kernelCount (hv : v.Lawful) {j : Json} {k : Kernel} (h : ReadsKernel v j k) :
    k.count ≤ kernelCount j := by
  obtain ⟨result, w, items, cs, -, hw, hitems, hcs, rfl⟩ := h
  rw [kernelCount, itemsAt_of_member hw hitems, Kernel.count]
  simp only
  clear hw hitems
  induction hcs with
  | nil => exact le_refl _
  | cons hc _ ih =>
    rw [List.map_cons, List.sum_cons, List.map_cons, List.sum_cons]
    exact add_le_add ⟨le_refl _, (good_config hv hc).2⟩ ih

theorem sum_count_le_kernelCount (hv : v.Lawful) {items : List Json}
    (h : List.Forall₂ (ReadsKernel v) items ks) :
    (ks.map Kernel.count).sum ≤ (items.map kernelCount).sum := by
  induction h with
  | nil => exact le_refl _
  | cons hk _ ih =>
    rw [List.map_cons, List.sum_cons, List.map_cons, List.sum_cons]
    exact add_le_add (count_le_kernelCount hv hk) ih

theorem count_fst (k : Kernel) : k.count.1 = k.configs.length := by
  rw [Kernel.count]
  induction k.configs with
  | nil => rfl
  | cons c cs ih =>
    rw [List.map_cons, List.sum_cons, Prod.fst_add, ih, List.length_cons]
    omega

/-- In a plan within the limits no kernel has too many configurations. -/
theorem length_configs_le (h : Counts.Within (ks.map Kernel.count).sum) {k : Kernel} (hk : k ∈ ks) :
    k.configs.length ≤ kConfigsMax := by
  have hle : k.count ≤ (ks.map Kernel.count).sum :=
    List.single_le_sum (fun _ _ => Prod.le_def.mpr ⟨Nat.zero_le _, Nat.zero_le _⟩) _
      (List.mem_map_of_mem hk)
  rw [← count_fst]
  exact hle.1.trans h.1

/-! ### The kernels of a file -/

theorem documentKernels_length {n : ℕ} {doc : Json} {items : List Json}
    (h : documentKernels n doc = .ok items) :
    items ≠ [] ∧ (items.length = 1 ∨ n = 1 ∧ items.length ≤ kKernelsMax) := by
  unfold documentKernels at h
  split at h
  · exact absurd h fail_ne
  obtain ⟨schemaJson, -, h⟩ := bind_ok h
  obtain ⟨schema, -, h⟩ := bind_ok h
  split at h
  · obtain ⟨_, -, h⟩ := bind_ok h
    split at h
    · exact absurd h fail_ne
    next hn =>
    obtain ⟨w, -, h⟩ := bind_ok h
    obtain ⟨-, hne, hlen⟩ := array_ok.mp h
    exact ⟨hne, .inr ⟨not_not.mp hn, hlen⟩⟩
  split at h
  · obtain ⟨_, -, h⟩ := bind_ok h
    obtain ⟨w, -, h⟩ := bind_ok h
    cases h
    exact ⟨List.cons_ne_nil _ _, .inl rfl⟩
  · exact absurd h fail_ne

/-- A file has some kernels, and not too many. -/
theorem areDocuments_length {id : String} {header : Json} {docs items : List Json}
    (hdocs : docs ≠ []) (hlen : docs.length ≤ kKernelsMax)
    (h : AreDocuments docs.length id header docs items) :
    items ≠ [] ∧ items.length ≤ kKernelsMax := by
  obtain ⟨parts, hparts, rfl⟩ := h
  have hpart : ∀ part ∈ parts, part ≠ [] ∧
      (part.length = 1 ∨ docs.length = 1 ∧ part.length ≤ kKernelsMax) := fun part hpart => by
    obtain ⟨doc, -, hdoc⟩ := forall₂_mem_right hparts hpart
    exact documentKernels_length hdoc.kernels
  have hlength := hparts.length_eq
  constructor
  · obtain ⟨part, hmem⟩ := List.exists_mem_of_ne_nil parts (by
      rw [← List.length_pos_iff, ← hlength]
      exact List.length_pos_iff.mpr hdocs)
    obtain ⟨item, hitem⟩ := List.exists_mem_of_ne_nil part (hpart part hmem).1
    exact List.ne_nil_of_mem (List.mem_flatten.mpr ⟨part, hmem, hitem⟩)
  · by_cases hone : docs.length = 1
    · obtain ⟨part, rfl⟩ := List.length_eq_one_iff.mp (hlength.symm.trans hone)
      rw [List.flatten_singleton]
      rcases (hpart part List.mem_cons_self).2 with h | h
      · rw [h]
        decide
      · exact h.2
    · have hall : ∀ part ∈ parts, part.length = 1 := fun part hmem =>
        (hpart part hmem).2.resolve_right fun h => hone h.1
      rw [List.length_flatten, List.map_congr_left hall, List.map_const', List.sum_replicate]
      simpa [← hlength] using hlen

/-! ### The loader's results -/

structure IsParsed (v : Vendor) (p : CanonicalPlan) : Prop where
  id : IsText p.id
  kernels : IsKernels v p.kernels
  fits : ContentFits (content p.kernels)
  ne : p.kernels ≠ []
  length : p.kernels.length ≤ kKernelsMax
  within : Counts.Within (p.kernels.map Kernel.count).sum
  canonical : p.canonical = canonicalJson p.id p.policy.toJson p.kernels
  sha256 : p.canonicalSha256 = v.hash256HexString (utf8 (v.dump true p.canonical))

theorem sorted_member {j w : Json} {key : String} (hj : j.Sorted) (h : member j key = .ok w) :
    w.Sorted := by
  obtain ⟨fields, rfl, hfield⟩ := member_ok h
  exact (Json.sorted_obj.mp hj).2 _ (mem_of_field hfield)

theorem isParsed_parse (hv : v.Lawful) {bytes : List UInt8} {p : CanonicalPlan}
    (h : parse v bytes = .ok p) : IsParsed v p := by
  unfold parse at h
  split at h
  · exact absurd h fail_ne
  split at h
  · exact absurd h fail_ne
  obtain ⟨docs, hdocs, h⟩ := bind_ok h
  obtain ⟨⟨loaded, rs⟩, hload, h⟩ := bind_ok h
  cases h
  obtain ⟨hne, hlen, hread⟩ := documents_ok hdocs
  obtain ⟨hloaded, hrs, items, hitems, hks, hcounts⟩ := (loadDocuments_iff hne).mp hload
  have hgood : ∀ k ∈ loaded.kernels, k.Good v := fun k hk => by
    obtain ⟨item, -, hitem⟩ := forall₂_mem_right hks hk
    exact good_kernel hv hitem
  obtain ⟨hkernels, hcontent⟩ := normalize_ok hgood hrs
  obtain ⟨hitemsne, hitemslen⟩ := areDocuments_length hne hlen hitems
  have hheader : loaded.header = loaded.policy.toJson := by
    obtain ⟨parts, hparts, -⟩ := hitems
    obtain ⟨doc, rest, rfl⟩ := List.exists_cons_of_ne_nil hne
    cases hparts with
    | cons hdoc _ =>
      obtain ⟨line, hline⟩ := hread doc List.mem_cons_self
      exact eq_toJson_of_policy (sorted_member (hv.sax_sorted line doc hline) hdoc.header)
        hloaded.policy
  have hksne : loaded.kernels ≠ [] := by
    rw [← List.length_pos_iff, ← hks.length_eq]
    exact List.length_pos_iff.mpr hitemsne
  refine ⟨hloaded.id, hkernels, hcontent ▸ (normalize_iff hgood).mp ⟨rs, hrs⟩, ?_, ?_, ?_, ?_, rfl⟩
  · obtain ⟨k, hk⟩ := List.exists_mem_of_ne_nil _ hksne
    obtain ⟨c, hc⟩ := List.exists_mem_of_ne_nil _ (hgood k hk).ne
    have hmem : (k.key, c) ∈ content loaded.kernels := ⟨k, hk, rfl, hc⟩
    rw [← hcontent] at hmem
    obtain ⟨r, hr, -⟩ := hmem
    exact List.ne_nil_of_mem hr
  · have := length_le_of_content hkernels hcontent
    have := hks.length_eq
    show rs.length ≤ kKernelsMax
    omega
  · apply hloaded.within.mono
    rw [hcounts]
    exact (sum_count_le hkernels hcontent).trans (sum_count_le_kernelCount hv hks)
  · simp only [hheader]

/-! ### Loading a canonical plan -/

theorem isDocument_canonical {id : String} (hid : IsText id) (p : Policy) (hne : ks ≠ [])
    (hlen : ks.length ≤ kKernelsMax) :
    IsDocument 1 id p.toJson (canonicalJson id p.toJson ks) (ks.map Kernel.toJson) :=
  isDocument_planDocument (text_str hid) (by simpa using hne) (by simpa using hlen)

theorem forall₂_readsKernel (hks : ∀ k ∈ ks, k.Good v)
    (hlen : ∀ k ∈ ks, k.configs.length ≤ kConfigsMax) :
    List.Forall₂ (ReadsKernel v) (ks.map Kernel.toJson) ks := by
  induction ks with
  | nil => exact .nil
  | cons k ks ih =>
    obtain ⟨hk, hks⟩ := List.forall_mem_cons.mp hks
    obtain ⟨hl, hlen⟩ := List.forall_mem_cons.mp hlen
    exact .cons (readsKernel_toJson hk hl) (ih hks hlen)

theorem sum_kernelCount_toJson (ks : List Kernel) :
    ((ks.map Kernel.toJson).map kernelCount).sum = (ks.map Kernel.count).sum := by
  rw [List.map_map]
  congr 1
  exact List.map_congr_left fun k _ => kernelCount_toJson k

/-- The document of kernels in normal form is loaded as the kernels. -/
theorem loadDocuments_canonicalJson {id : String} (hid : IsText id) (p : Policy) (hks : IsKernels v ks)
    (hfits : ContentFits (content ks)) (hne : ks ≠ []) (hlen : ks.length ≤ kKernelsMax)
    (hwithin : Counts.Within (ks.map Kernel.count).sum) :
    loadDocuments v [canonicalJson id p.toJson ks] =
      .ok (⟨id, p.toJson, p, ks, (ks.map Kernel.count).sum⟩, ks) := by
  refine (loadDocuments_iff (List.cons_ne_nil _ _)).mpr ⟨⟨hid, policy_toJson p, hwithin⟩,
    normalize_self hks hfits, ks.map Kernel.toJson, ?_, ?_, ?_⟩
  · exact ⟨[ks.map Kernel.toJson], .cons (isDocument_canonical hid p hne hlen) .nil, by simp⟩
  · exact forall₂_readsKernel hks.good fun k hk => length_configs_le hwithin hk
  · exact (sum_kernelCount_toJson ks).symm

theorem loadDocuments_canonical {p : CanonicalPlan} (h : IsParsed v p) :
    loadDocuments v [p.canonical] =
      .ok (⟨p.id, p.policy.toJson, p.policy, p.kernels, (p.kernels.map Kernel.count).sum⟩,
        p.kernels) := by
  rw [h.canonical]
  exact loadDocuments_canonicalJson h.id p.policy h.kernels h.fits h.ne h.length h.within

theorem IsParsed.plain {p : CanonicalPlan} (h : IsParsed v p) : p.canonical.Plain := by
  rw [h.canonical]
  exact plain_canonical p.id p.policy h.kernels.good

theorem IsParsed.shallow {p : CanonicalPlan} (h : IsParsed v p) : p.canonical.Shallow 64 := by
  rw [h.canonical]
  exact shallow_canonical p.id p.policy p.kernels

/-- The text of a document within the limits is parsed as the document is loaded. -/
theorem parse_dump (hv : v.Lawful) (ascii : Bool) {j : Json} (hj : j.Plain)
    (hshallow : j.Shallow 64) (hsize : (v.dump ascii j).utf8ByteSize ≤ kFileBytesMax)
    (hnodes : j.nodes ≤ kNodesMax) {loaded : Loading} (h : loadDocuments v [j] = .ok (loaded, ks)) :
    parse v (utf8 (v.dump ascii j)) = .ok ⟨loaded.id, loaded.policy, ks,
      canonicalJson loaded.id loaded.header ks,
      v.hash256HexString (utf8 (v.dump true (canonicalJson loaded.id loaded.header ks))),
      v.hash256HexString (utf8 (v.dump ascii j))⟩ := by
  have hbytes : ¬(utf8 (v.dump ascii j) = [] ∨
      kFileBytesMax < (utf8 (v.dump ascii j)).length) := by
    rw [length_utf8, not_or]
    exact ⟨fun hnil => hv.dump_ne ascii j hj (utf8_injective hnil), by omega⟩
  rw [parse, if_neg hbytes, if_neg (hv.dump_no_nul ascii j hj),
    documents_dump hv ascii hj hshallow hnodes, ok_bind, h, ok_bind]
  rfl

/-- A document with too many nodes is no plan. -/
theorem parse_full (hv : v.Lawful) (ascii : Bool) {j : Json} (hj : j.Plain)
    (hnodes : kNodesMax < j.nodes) (q : CanonicalPlan) :
    parse v (utf8 (v.dump ascii j)) ≠ .ok q := by
  intro h
  unfold parse at h
  split at h
  · exact fail_ne h
  split at h
  · exact fail_ne h
  obtain ⟨docs, hdocs, -⟩ := bind_ok h
  exact documents_full hv ascii hj hnodes hdocs

/-! ### Records -/

theorem loadDocuments_record {id : String} (hid : IsText id) (p : Policy) {k : Kernel}
    (hk : k.Normal v) (hfits : ContentFits (content [k])) (hwithin : k.count.Within) :
    loadDocuments v [recordJson id p k] = .ok (⟨id, p.toJson, p, [k], k.count⟩, [k]) := by
  have hks : IsKernels v [k] :=
    ⟨fun l hl => List.mem_singleton.mp hl ▸ hk, List.pairwise_singleton _ _⟩
  have hlen : k.configs.length ≤ kConfigsMax := count_fst k ▸ hwithin.1
  refine (loadDocuments_iff (List.cons_ne_nil _ _)).mpr ⟨⟨hid, policy_toJson p, hwithin⟩,
    normalize_self hks hfits, [k.toJson], ?_, .cons (readsKernel_toJson hk.good hlen) .nil, ?_⟩
  · exact ⟨[[k.toJson]], .cons (isDocument_planRecord (text_str hid)) .nil, by simp⟩
  · rw [List.map_singleton, List.sum_singleton, kernelCount_toJson]

/-- So the text of a record within the limits is parsed as its kernel. -/
theorem parse_record (hv : v.Lawful) (ascii : Bool) {id : String} (hid : IsText id) (p : Policy)
    {k : Kernel} (hk : k.Normal v) (hfits : ContentFits (content [k])) (hwithin : k.count.Within)
    (hsize : (v.dump ascii (recordJson id p k)).utf8ByteSize ≤ kFileBytesMax)
    (hnodes : (recordJson id p k).nodes ≤ kNodesMax) :
    ∃ q, parse v (utf8 (v.dump ascii (recordJson id p k))) = .ok q ∧
      q.canonical = canonicalJson id p.toJson [k] :=
  ⟨_, parse_dump hv ascii (plain_record id p hk.good) (shallow_record id p k) hsize hnodes
    (loadDocuments_record hid p hk hfits hwithin), rfl⟩

/-- Whatever its widths are within the nodes, a record of two wide configurations is parsed. -/
theorem parse_twoWide {ctas warps ctas' warps' : ℕ} (hctas : Width ctas) (hwarps : Width warps)
    (hctas' : Width ctas') (hwarps' : Width warps')
    (hnodes : 149 + 5 * ctas + warps + 5 * ctas' + warps' ≤ kNodesMax) :
    ∃ q, parse compact (utf8 (compact.dump true
        (recordJson "plan" ⟨false, false⟩ (twoWide ctas warps ctas' warps')))) = .ok q ∧
      q.canonical = canonicalJson "plan" (Policy.toJson ⟨false, false⟩)
        [twoWide ctas warps ctas' warps'] := by
  have hnormal := normal_twoWide (v := compact) hctas hwarps hctas' hwarps'
  have hlength := length_record_le ⟨false, false⟩ (twoWide ctas warps ctas' warps')
  have hkernel := length_twoWide_le hctas hwarps hctas' hwarps'
  have hmax : 33 * kNodesMax + 2000 ≤ kFileBytesMax := by decide
  apply parse_record lawful_compact true (isText_literal rfl (by decide)) _ hnormal fits_twoWide
    within_twoWide
  · rw [size_compact (plain_record "plan" _ hnormal.good)]
    omega
  · rw [nodes_record, nodes_twoWide hctas hwarps hctas' hwarps']
    omega

/-! ### The fixed point -/

/-- The canonical plan is a fixed point, within the file size and the JSON nodes. -/
theorem parse_canonical (hv : v.Lawful) {bytes : List UInt8} {p : CanonicalPlan}
    (h : parse v bytes = .ok p) (ascii : Bool)
    (hsize : (v.dump ascii p.canonical).utf8ByteSize ≤ kFileBytesMax)
    (hnodes : p.canonical.nodes ≤ kNodesMax) :
    ∃ q, parse v (utf8 (v.dump ascii p.canonical)) = .ok q ∧ q.canonical = p.canonical ∧
      q.canonicalSha256 = p.canonicalSha256 ∧ q.policy = p.policy ∧ q.kernels = p.kernels := by
  have hp := isParsed_parse hv h
  have hq := parse_dump hv ascii hp.plain hp.shallow hsize hnodes (loadDocuments_canonical hp)
  refine ⟨_, hq, hp.canonical.symm, ?_, rfl, rfl⟩
  rw [hp.sha256, ← hp.canonical]

theorem parse_canonical_small : ∃ p q : CanonicalPlan,
    parse compact (utf8 (compact.dump true
      (recordJson "plan" ⟨false, false⟩ (twoWide 2 3 1 1)))) = .ok p ∧
    parse compact (utf8 (compact.dump true p.canonical)) = .ok q ∧
    q.canonical = p.canonical ∧ q.canonicalSha256 = p.canonicalSha256 ∧ q.policy = p.policy ∧
    q.kernels = p.kernels := by
  have hwidth : Width 2 ∧ Width 3 ∧ Width 1 := by
    simp [Width, kArrayMax]
  obtain ⟨h₂, h₃, h₁⟩ := hwidth
  obtain ⟨p, hp, hcanonical⟩ := parse_twoWide h₂ h₃ h₁ h₁ (by decide)
  have hsize : (compact.dump true p.canonical).utf8ByteSize ≤ kFileBytesMax := by
    rw [size_compact (isParsed_parse lawful_compact hp).plain, hcanonical]
    exact (length_canonical_twoWide_le ⟨false, false⟩ h₂ h₃ h₁ h₁).trans (by decide)
  have hnodes : p.canonical.nodes ≤ kNodesMax := by
    rw [hcanonical, nodes_canonical, nodes_twoWide h₂ h₃ h₁ h₁]
    decide
  obtain ⟨q, hq⟩ := parse_canonical lawful_compact hp true hsize hnodes
  exact ⟨p, q, hp, hq⟩

/-- A record with as many nodes as a document may have is parsed, but its canonical plan has
two nodes more and is refused, although its text is within the file size. -/
theorem parse_canonical_full : compact.Lawful ∧ ∃ p : CanonicalPlan,
    parse compact (utf8 (compact.dump true
      (recordJson "plan" ⟨false, false⟩ (twoWide 65536 22170 30000 1)))) = .ok p ∧
    (compact.dump true p.canonical).utf8ByteSize ≤ kFileBytesMax ∧
    ∀ q, parse compact (utf8 (compact.dump true p.canonical)) ≠ .ok q := by
  have hwidth : Width 65536 ∧ Width 22170 ∧ Width 30000 ∧ Width 1 := by
    simp [Width, kArrayMax]
  obtain ⟨h₁, h₂, h₃, h₄⟩ := hwidth
  obtain ⟨p, hp, hcanonical⟩ := parse_twoWide h₁ h₂ h₃ h₄ (by decide)
  have hnormal := normal_twoWide (v := compact) h₁ h₂ h₃ h₄
  have hplain := (isParsed_parse lawful_compact hp).plain
  have hnodes : p.canonical.nodes = kNodesMax + 2 := by
    rw [hcanonical, nodes_canonical, nodes_twoWide h₁ h₂ h₃ h₄]
    rfl
  refine ⟨lawful_compact, p, hp, ?_, parse_full lawful_compact true hplain (by omega)⟩
  rw [size_compact hplain, hcanonical]
  exact (length_canonical_twoWide_le ⟨false, false⟩ h₁ h₂ h₃ h₄).trans (by decide)

end CuTracer.Plan
