import CuTracer.Plan.Kernels

/-! Normal form. What the kernels of a plan say is which configurations each binary's
entry has. Kernels that agree on the bytes of every instruction and on the configuration
of every identifier have a normal form, which says the same; there is one normal form
of what is said, and it is its own. -/

namespace CuTracer.Plan

variable {v : Vendor}

abbrev KernelKey := String ×ₗ (String ×ₗ String)

def Kernel.Has (k : Kernel) : Set Config := {c | c ∈ k.configs}

def content (ks : List Kernel) : Set (KernelKey × Config) := keyed Kernel.key Kernel.Has ks

variable {ks : List Kernel}

theorem mem_content {p : KernelKey × Config} :
    p ∈ content ks ↔ ∃ k ∈ ks, p.1 = k.key ∧ p.2 ∈ k.configs := Iff.rfl

def binary (key : KernelKey) : String := (ofLex key).1

/-- The instructions of a binary have one text each, and the configurations of a kernel
one identifier each. -/
structure ContentFits (S : Set (KernelKey × Config)) : Prop where
  bytes : ∀ a ∈ S, ∀ b ∈ S, binary a.1 = binary b.1 → ∀ p ∈ a.2.points, ∀ q ∈ b.2.points,
    p.function = q.function → p.pc = q.pc → p.expectedBytes = q.expectedBytes
  configs : ∀ a ∈ S, ∀ b ∈ S, a.1 = b.1 → a.2.id = b.2.id → a.2 = b.2

/-! ### Instruction bytes -/

theorem joins_bytes :
    Joins PointBytes.key sameBytes (fun _ => True) (fun b => {b.bytes})
      fun _ I => I.Subsingleton where
  mono h hsub := h.anti hsub
  empty _ := Set.subsingleton_empty
  good_fits _ := Set.subsingleton_singleton
  merge_ok := by
    intro y x z _ _ hkey hmerge
    unfold sameBytes at hmerge
    split at hmerge
    · exact absurd hmerge fail_ne
    next hbytes =>
    cases hmerge
    rw [not_not] at hbytes
    exact ⟨trivial, hkey, by rw [hbytes, Set.union_self]⟩
  merge_iff := by
    intro y x _ _ _
    unfold sameBytes
    split
    · next hbytes =>
      refine ⟨fun ⟨z, hz⟩ => absurd hz fail_ne, fun hfits => absurd ?_ hbytes⟩
      exact hfits (.inl rfl) (.inr rfl)
    · next hbytes =>
      rw [not_not] at hbytes
      rw [hbytes, Set.union_self]
      exact ⟨fun _ => Set.subsingleton_singleton, fun _ => ⟨_, rfl⟩⟩

def kernelBytes (k : Kernel) : List PointBytes :=
  k.configs.flatMap fun c => c.points.map (pointBytes k)

theorem foldlM_flatMap {α β σ ε : Type} {f : α → List β} {g : σ → β → Except ε σ} {xs : List α}
    {s : σ} : (xs.flatMap f).foldlM g s = xs.foldlM (fun s x => (f x).foldlM g s) s := by
  induction xs generalizing s with
  | nil => rfl
  | cons x xs ih =>
    rw [List.flatMap_cons, List.foldlM_append, List.foldlM_cons]
    exact bind_congr fun t => ih

theorem addBytes_eq (k : Kernel) (bytes : List PointBytes) :
    k.configs.foldlM (addBytes k) bytes =
      (kernelBytes k).foldlM (fun bytes b => emplaceWith PointBytes.key sameBytes b bytes)
        bytes := by
  rw [kernelBytes, foldlM_flatMap]
  congr 1
  funext bytes c
  rw [addBytes, List.foldlM_map]

/-! ### Groups -/

theorem joins_kernel :
    Joins Kernel.key joinKernel (Kernel.Good v) Kernel.Has fun _ _ => True where
  mono _ _ := trivial
  empty _ := trivial
  good_fits _ := trivial
  merge_ok := by
    intro y x z hy hx hkey hmerge
    cases hmerge
    refine ⟨⟨⟨hy.fields.entry, hy.fields.target, hy.fields.text, hy.fields.size,
      hy.fields.hex⟩, ?_, ?_⟩, hkey, ?_⟩
    · exact fun hnil => hy.ne (List.append_eq_nil_iff.mp hnil).1
    · intro c hc
      rcases List.mem_append.mp hc with hc | hc
      · exact hy.configs c hc
      · exact hx.configs c hc
    · ext c
      exact List.mem_append
  merge_iff _ _ _ := ⟨fun _ => trivial, fun _ => ⟨_, rfl⟩⟩

/-- Adding kernels groups them and collects the bytes of their points, independently. -/
theorem foldlM_addKernel {ks g g' : List Kernel} {b b' : List PointBytes} :
    ks.foldlM addKernel (g, b) = .ok (g', b') ↔
      ks.foldlM (fun g k => emplaceWith Kernel.key joinKernel k g) g = .ok g' ∧
        (ks.flatMap kernelBytes).foldlM
          (fun bytes b => emplaceWith PointBytes.key sameBytes b bytes) b = .ok b' := by
  rw [foldlM_flatMap]
  induction ks generalizing g b with
  | nil =>
    constructor
    · intro h
      cases h
      exact ⟨rfl, rfl⟩
    · rintro ⟨hg, hb⟩
      cases hg
      cases hb
      rfl
  | cons k ks ih =>
    rw [List.foldlM_cons, List.foldlM_cons, List.foldlM_cons]
    constructor
    · intro h
      obtain ⟨⟨g₁, b₁⟩, hstep, hrest⟩ := bind_ok h
      obtain ⟨b₂, hb, hstep⟩ := bind_ok hstep
      obtain ⟨g₂, hg, hstep⟩ := bind_ok hstep
      cases hstep
      rw [addBytes_eq] at hb
      rw [hg, hb]
      exact ih.mp hrest
    · rintro ⟨hg, hb⟩
      obtain ⟨g₁, hg₁, hg⟩ := bind_ok hg
      obtain ⟨b₁, hb₁, hb⟩ := bind_ok hb
      rw [addKernel, addBytes_eq, hb₁, ok_bind, hg₁]
      exact ih.mpr ⟨hg, hb⟩

/-! ### Configurations of a group -/

theorem toJson_injOn {x y : Config} (hx : x.Good v) (hy : y.Good v)
    (h : x.toJson = y.toJson) : x = y := by
  have hx' := readConfig_toJson hx
  rw [h, readConfig_toJson hy] at hx'
  exact (Except.ok.inj hx').symm

theorem joins_config :
    Joins Config.id sameConfig (Config.Good v) (fun c => {c}) fun _ I => I.Subsingleton where
  mono h hsub := h.anti hsub
  empty _ := Set.subsingleton_empty
  good_fits _ := Set.subsingleton_singleton
  merge_ok := by
    intro y x z hy hx hkey hmerge
    unfold sameConfig at hmerge
    split at hmerge
    · exact absurd hmerge fail_ne
    next hsame =>
    cases hmerge
    obtain rfl := toJson_injOn hy hx (not_not.mp hsame)
    exact ⟨hy, rfl, (Set.union_self _).symm⟩
  merge_iff := by
    intro y x hy hx _
    unfold sameConfig
    split
    · next hdiff =>
      refine ⟨fun ⟨z, hz⟩ => absurd hz fail_ne, fun hfits => absurd ?_ hdiff⟩
      exact congrArg Config.toJson (hfits (.inl rfl) (.inr rfl))
    · next hsame =>
      obtain rfl := toJson_injOn hy hx (not_not.mp hsame)
      rw [Set.union_self]
      exact ⟨fun _ => Set.subsingleton_singleton, fun _ => ⟨_, rfl⟩⟩

structure Kernel.Normal (v : Vendor) (k : Kernel) : Prop where
  good : k.Good v
  increasing : IncreasingBy Config.id k.configs

/-- A group has a normal form exactly if its configurations have one identifier each; the
normal form has the same configurations. -/
theorem uniqueConfigs_iff {k : Kernel} (hk : k.Good v) :
    (∃ k', uniqueConfigs k = .ok k') ↔
      ∀ c ∈ k.configs, ∀ d ∈ k.configs, c.id = d.id → c = d := by
  have hiff := (joins_config (v := v)).accumulates.foldlM_iff (collected_nil _ _)
    (fun _ => Set.subsingleton_empty.anti fun c hc => by
      obtain ⟨d, hd, -⟩ := hc
      cases hd) hk.configs
  have hfits : (∀ id, (at_ id (keyed Config.id (fun c => ({c} : Set Config)) [] ∪
      factsOf (fun c => {p : String × Config | p.1 = c.id ∧ p.2 ∈ ({c} : Set Config)})
        k.configs)).Subsingleton) ↔ ∀ c ∈ k.configs, ∀ d ∈ k.configs, c.id = d.id → c = d := by
    have hempty : keyed Config.id (fun c => ({c} : Set Config)) [] = ∅ := factsOf_nil _
    rw [hempty, Set.empty_union]
    constructor
    · intro h c hc d hd hid
      exact h d.id ⟨c, hc, hid.symm, rfl⟩ ⟨d, hd, rfl, rfl⟩
    · rintro h id c ⟨c', hc, hcid, hc'⟩ d ⟨d', hd, hdid, hd'⟩
      obtain rfl := Set.mem_singleton_iff.mp hc'
      obtain rfl := Set.mem_singleton_iff.mp hd'
      exact h _ hc _ hd (hcid.symm.trans hdid)
  rw [hfits] at hiff
  rw [← hiff]
  constructor
  · rintro ⟨k', h⟩
    obtain ⟨cs, hcs, -⟩ := bind_ok h
    exact ⟨cs, hcs⟩
  · rintro ⟨cs, hcs⟩
    exact ⟨_, by rw [uniqueConfigs, hcs]; rfl⟩

theorem normal_uniqueConfigs {k k' : Kernel} (hk : k.Good v) (h : uniqueConfigs k = .ok k') :
    k'.Normal v ∧ k'.key = k.key ∧ k'.Has = k.Has := by
  obtain ⟨cs, hcs, heq⟩ := bind_ok h
  cases heq
  obtain ⟨hinv, hinfo⟩ := (joins_config (v := v)).accumulates.foldlM_ok (collected_nil _ _)
    hk.configs hcs
  have hmem : ∀ c, c ∈ cs ↔ c ∈ k.configs := by
    intro c
    have h := Set.ext_iff.mp hinfo (c.id, c)
    constructor
    · intro hc
      rcases h.mp ⟨c, hc, rfl, rfl⟩ with ⟨d, hd, -⟩ | ⟨d, hd, -, hcd⟩
      · cases hd
      · obtain rfl : c = d := hcd
        exact hd
    · intro hc
      obtain ⟨d, hd, -, hcd⟩ := h.mpr (.inr ⟨c, hc, rfl, rfl⟩)
      obtain rfl : c = d := hcd
      exact hd
  refine ⟨⟨⟨⟨hk.fields.entry, hk.fields.target, hk.fields.text, hk.fields.size,
    hk.fields.hex⟩, ?_, ?_⟩, sortOn_increasing hinv.nodup⟩, rfl, ?_⟩
  · obtain ⟨c, hc⟩ := List.exists_mem_of_ne_nil _ hk.ne
    exact List.ne_nil_of_mem (mem_sortOn.mpr ((hmem c).mpr hc))
  · exact fun c hc => hinv.good c (mem_sortOn.mp hc)
  · ext c
    exact mem_sortOn.trans (hmem c)

/-! ### Normal forms -/

structure IsKernels (v : Vendor) (ks : List Kernel) : Prop where
  normal : ∀ k ∈ ks, k.Normal v
  increasing : IncreasingBy Kernel.key ks

theorem mem_kernelBytes {b : PointBytes} :
    b ∈ ks.flatMap kernelBytes ↔
      ∃ a ∈ content ks, ∃ p ∈ a.2.points, b = ⟨binary a.1, p.function, p.pc, p.expectedBytes⟩ := by
  simp only [List.mem_flatMap, kernelBytes, List.mem_map]
  constructor
  · rintro ⟨k, hk, c, hc, p, hp, rfl⟩
    exact ⟨(k.key, c), ⟨k, hk, rfl, hc⟩, p, hp, rfl⟩
  · rintro ⟨⟨key, c⟩, ⟨k, hk, hkey, hc⟩, p, hp, rfl⟩
    simp only at hkey
    subst hkey
    exact ⟨k, hk, c, hc, p, hp, rfl⟩

theorem bytes_iff :
    (∃ b, (ks.flatMap kernelBytes).foldlM
      (fun bytes b => emplaceWith PointBytes.key sameBytes b bytes) [] = .ok b) ↔
      ∀ a ∈ content ks, ∀ b ∈ content ks, binary a.1 = binary b.1 → ∀ p ∈ a.2.points,
        ∀ q ∈ b.2.points, p.function = q.function → p.pc = q.pc →
          p.expectedBytes = q.expectedBytes := by
  have hempty : keyed PointBytes.key (fun b => ({b.bytes} : Set String)) [] = ∅ := factsOf_nil _
  rw [joins_bytes.accumulates.foldlM_iff (collected_nil _ _)
    (fun _ => Set.subsingleton_empty.anti fun f hf => by rw [hempty] at hf; exact hf.elim)
    (fun _ _ => trivial), hempty, Set.empty_union]
  constructor
  · intro h a ha b hb hbinary p hp q hq hfunction hpc
    have hmem : ∀ c ∈ content ks, ∀ r ∈ c.2.points,
        ⟨binary c.1, r.function, r.pc, r.expectedBytes⟩ ∈ ks.flatMap kernelBytes :=
      fun c hc r hr => mem_kernelBytes.mpr ⟨c, hc, r, hr, rfl⟩
    exact h (binary b.1, q.function, q.pc)
      ⟨_, hmem a ha p hp, by simp [PointBytes.key, hbinary, hfunction, hpc], rfl⟩
      ⟨_, hmem b hb q hq, rfl, rfl⟩
  · rintro h key x ⟨b, hb, hkey, hx⟩ y ⟨c, hc, hkey', hy⟩
    obtain ⟨a, ha, p, hp, rfl⟩ := mem_kernelBytes.mp hb
    obtain ⟨d, hd, q, hq, rfl⟩ := mem_kernelBytes.mp hc
    have hsame := hkey.symm.trans hkey'
    simp only [PointBytes.key, Prod.mk.injEq] at hsame
    obtain ⟨hbinary, hfunction, hpc⟩ := hsame
    exact hx.trans ((h a ha d hd hbinary p hp q hq hfunction hpc).trans hy.symm)

/-- Grouping never fails and says the same. -/
theorem exists_grouped (hks : ∀ k ∈ ks, k.Good v) :
    ∃ g, ks.foldlM (fun g k => emplaceWith Kernel.key joinKernel k g) [] = .ok g ∧
      Collected Kernel.key (Kernel.Good v) g ∧ content g = content ks := by
  have hacc := (joins_kernel (v := v)).accumulates
  obtain ⟨g, hg⟩ := (hacc.foldlM_iff (collected_nil _ _) (fun _ => trivial) hks).mpr
    fun _ => trivial
  obtain ⟨hinv, hinfo⟩ := hacc.foldlM_ok (collected_nil _ _) hks hg
  have hempty : keyed Kernel.key Kernel.Has [] = ∅ := factsOf_nil _
  rw [hempty, Set.empty_union] at hinfo
  exact ⟨g, hg, hinv, hinfo⟩

theorem normalize_eq {ks g : List Kernel}
    (hg : ks.foldlM (fun g k => emplaceWith Kernel.key joinKernel k g) [] = .ok g)
    {rs : List Kernel} :
    normalize ks = .ok rs ↔
      (∃ b, (ks.flatMap kernelBytes).foldlM
        (fun bytes b => emplaceWith PointBytes.key sameBytes b bytes) [] = .ok b) ∧
        List.Forall₂ (fun k r => uniqueConfigs k = .ok r) (sortOn Kernel.key g) rs := by
  constructor
  · intro h
    obtain ⟨⟨g', b⟩, hfold, h⟩ := bind_ok h
    obtain ⟨hg', hb⟩ := foldlM_addKernel.mp hfold
    rw [hg] at hg'
    cases hg'
    exact ⟨⟨b, hb⟩, mapM_ok.mp h⟩
  · rintro ⟨⟨b, hb⟩, hrs⟩
    rw [normalize, foldlM_addKernel.mpr ⟨hg, hb⟩, ok_bind]
    exact mapM_ok.mpr hrs

/-- Kernels have a normal form exactly if what they say fits. -/
theorem normalize_iff (hks : ∀ k ∈ ks, k.Good v) :
    (∃ rs, normalize ks = .ok rs) ↔ ContentFits (content ks) := by
  obtain ⟨g, hg, hinv, hcontent⟩ := exists_grouped hks
  have hconfigs : (∃ rs, List.Forall₂ (fun k r => uniqueConfigs k = .ok r)
      (sortOn Kernel.key g) rs) ↔
      ∀ a ∈ content ks, ∀ b ∈ content ks, a.1 = b.1 → a.2.id = b.2.id → a.2 = b.2 := by
    rw [exists_forall₂, ← hcontent]
    constructor
    · rintro h ⟨key, c⟩ ⟨k, hk, hkey, hc⟩ ⟨key', d⟩ ⟨l, hl, hkey', hd⟩ hsame hid
      simp only at hkey hkey' hsame
      have hkl : k = l := List.inj_on_of_nodup_map hinv.nodup hk hl
        (hkey.symm.trans (hsame.trans hkey'))
      subst hkl
      exact (uniqueConfigs_iff (hinv.good k hk)).mp (h k (mem_sortOn.mpr hk)) c hc d hd hid
    · intro h k hk
      rw [mem_sortOn] at hk
      rw [uniqueConfigs_iff (hinv.good k hk)]
      exact fun c hc d hd hid => h (k.key, c) ⟨k, hk, rfl, hc⟩ (k.key, d) ⟨k, hk, rfl, hd⟩ rfl hid
  constructor
  · rintro ⟨rs, h⟩
    obtain ⟨hbytes, hrs⟩ := (normalize_eq hg).mp h
    exact ⟨bytes_iff.mp hbytes, hconfigs.mp ⟨rs, hrs⟩⟩
  · intro hfits
    obtain ⟨rs, hrs⟩ := hconfigs.mpr hfits.configs
    exact ⟨rs, (normalize_eq hg).mpr ⟨bytes_iff.mpr hfits.bytes, hrs⟩⟩

/-- A normal form says what the kernels say. -/
theorem normalize_ok {ks rs : List Kernel} (hks : ∀ k ∈ ks, k.Good v)
    (h : normalize ks = .ok rs) : IsKernels v rs ∧ content rs = content ks := by
  obtain ⟨g, hg, hinv, hcontent⟩ := exists_grouped hks
  obtain ⟨-, hrs⟩ := (normalize_eq hg).mp h
  have hgood : ∀ k ∈ sortOn Kernel.key g, k.Good v := fun k hk => hinv.good k (mem_sortOn.mp hk)
  have hsorted := sortOn_increasing hinv.nodup
  have hsame : content (sortOn Kernel.key g) = content g := factsOf_perm (sortOn_perm _ _)
  rw [← hcontent, ← hsame]
  clear hg hcontent hsame h hinv
  generalize sortOn Kernel.key g = l at *
  induction hrs with
  | nil => exact ⟨⟨fun _ hk => (by cases hk), List.Pairwise.nil⟩, rfl⟩
  | @cons k r ks rs hr hrs ih =>
    obtain ⟨hk, hks⟩ := List.forall_mem_cons.mp hgood
    obtain ⟨hlt, hrest⟩ := List.pairwise_cons.mp hsorted
    obtain ⟨hkernels, hcontent⟩ := ih hks hrest
    obtain ⟨hnormal, hkey, hhas⟩ := normal_uniqueConfigs hk hr
    refine ⟨⟨List.forall_mem_cons.mpr ⟨hnormal, hkernels.normal⟩,
      List.pairwise_cons.mpr ⟨?_, hkernels.increasing⟩⟩, ?_⟩
    · intro s hs
      obtain ⟨l, hl, hls⟩ := forall₂_mem_right hrs hs
      rw [hkey, (normal_uniqueConfigs (hks l hl) hls).2.1]
      exact hlt l hl
    · rw [content, keyed, factsOf_cons, content, keyed, factsOf_cons, hkey, hhas]
      exact congrArg _ hcontent

/-- One normal form says what is said. -/
theorem IsKernels.eq_of_content {ks ls : List Kernel} (hks : IsKernels v ks)
    (hls : IsKernels v ls) (h : content ks = content ls) : ks = ls := by
  have hcollected : ∀ {ks : List Kernel}, IsKernels v ks →
      Collected Kernel.key (Kernel.Normal v) ks := fun hks => ⟨hks.increasing.nodup, hks.normal⟩
  apply eq_of_perm_of_increasing _ hks.increasing hls.increasing
  refine (hcollected hks).perm_of_keyed (hcollected hls) ?_ ?_ h
  · intro k hk
    obtain ⟨c, hc⟩ := List.exists_mem_of_ne_nil _ hk.good.ne
    exact ⟨c, hc⟩
  · intro k l hk hl hkey hhas
    have hconfigs := eq_of_increasing hk.increasing hl.increasing fun c => Set.ext_iff.mp hhas c
    obtain ⟨entry, target, cubin, configs⟩ := k
    obtain ⟨entry', target', cubin', configs'⟩ := l
    have hkey' : (cubin, entry, target) = (cubin', entry', target') := hkey
    simp only [Prod.mk.injEq] at hkey'
    obtain ⟨rfl, rfl, rfl⟩ := hkey'
    simp only at hconfigs
    rw [hconfigs]

theorem IsKernels.good (h : IsKernels v ks) : ∀ k ∈ ks, k.Good v :=
  fun k hk => (h.normal k hk).good

/-- A normal form is its own. -/
theorem normalize_self (h : IsKernels v ks) (hfits : ContentFits (content ks)) :
    normalize ks = .ok ks := by
  obtain ⟨rs, hrs⟩ := (normalize_iff h.good).mpr hfits
  obtain ⟨hkernels, hcontent⟩ := normalize_ok h.good hrs
  rw [hrs, hkernels.eq_of_content h hcontent]

/-- What has a normal form does not depend on how it is said. -/
theorem normalize_congr {ks ls : List Kernel} (hks : ∀ k ∈ ks, k.Good v)
    (hls : ∀ k ∈ ls, k.Good v) (h : content ks = content ls) :
    Coupled Eq (normalize ks) (normalize ls) := by
  intro rs hrs
  obtain ⟨ts, hts⟩ := (normalize_iff hls).mpr (h ▸ (normalize_iff hks).mp ⟨rs, hrs⟩)
  obtain ⟨hr, hcr⟩ := normalize_ok hks hrs
  obtain ⟨ht, hct⟩ := normalize_ok hls hts
  exact ⟨ts, hts, hr.eq_of_content ht (hcr.trans (h.trans hct.symm))⟩

end CuTracer.Plan
