import CuTracer.Service.Campaign
import Mathlib.Data.Finset.Card

/-! Sampling a catalog. The selectors of an entry stand in one order, by a score of each selector,
whatever the order of the units; the first ones up to the limit are selected, with all their units. -/

namespace CuTracer.Service

open CatalogWorkUnit

variable {targets targets' : List CatalogWorkUnit} {t t' : CatalogWorkUnit}

/-! ### The units of one entry -/

/-- Units of one selector have one test and one policy. -/
def SelectorsAgree (targets : List CatalogWorkUnit) : Prop :=
  ∀ t ∈ targets, ∀ t' ∈ targets, t.selectorIndex = t'.selectorIndex →
    t.unit.testId = t'.unit.testId ∧ t.sampling = t'.sampling

def firstOf (targets : List CatalogWorkUnit) (i : ℕ) : Option CatalogWorkUnit :=
  targets.find? fun t => t.selectorIndex = i

theorem firstOf_concat (i : ℕ) :
    firstOf (targets ++ [t]) i =
      if t.selectorIndex = i then some ((firstOf targets i).getD t) else firstOf targets i := by
  unfold firstOf
  rw [List.find?_append]
  by_cases h : t.selectorIndex = i
  · cases targets.find? fun t => t.selectorIndex = i <;> simp [h]
  · simp [h]

theorem firstOf_eq_some {i : ℕ} (h : firstOf targets i = some t) :
    t ∈ targets ∧ t.selectorIndex = i :=
  ⟨List.mem_of_find?_eq_some h, by simpa using List.find?_some h⟩

theorem exists_firstOf (ht : t ∈ targets) :
    ∃ t', firstOf targets t.selectorIndex = some t' ∧ t' ∈ targets ∧
      t'.selectorIndex = t.selectorIndex := by
  have hsome : (firstOf targets t.selectorIndex).isSome := by
    rw [firstOf, List.find?_isSome]
    exact ⟨t, ht, by simp⟩
  obtain ⟨t', ht'⟩ := Option.isSome_iff_exists.mp hsome
  exact ⟨t', ht', firstOf_eq_some ht'⟩

theorem SelectorsAgree.concat (h : SelectorsAgree targets)
    (hnew : ∀ t' ∈ targets, t'.selectorIndex = t.selectorIndex →
      t'.unit.testId = t.unit.testId ∧ t'.sampling = t.sampling) : SelectorsAgree (targets ++ [t]) := by
  intro a ha b hb hab
  simp only [List.mem_append, List.mem_singleton] at ha hb
  obtain ha | rfl := ha
  · obtain hb | rfl := hb
    · exact h a ha b hb hab
    · exact hnew a ha hab
  · obtain hb | rfl := hb
    · obtain ⟨htest, hsampling⟩ := hnew b hb hab.symm
      exact ⟨htest.symm, hsampling.symm⟩
    · exact ⟨rfl, rfl⟩

/-- The first units are found only if the units of each selector agree. -/
theorem representatives_ok {d : Dict ℕ CatalogWorkUnit} (h : representatives targets = .ok d) :
    SelectorsAgree targets ∧ ∀ i, d.get? i = firstOf targets i := by
  induction targets using List.reverseRecOn generalizing d with
  | nil =>
    cases h
    exact ⟨by simp [SelectorsAgree], fun i => rfl⟩
  | append_singleton targets t ih =>
    rw [representatives, List.foldlM_append] at h
    obtain ⟨d', hd', h⟩ := bind_ok h
    obtain ⟨hagree, hget⟩ := ih hd'
    simp only [List.foldlM_cons, List.foldlM_nil, bind_pure] at h
    obtain ⟨_, htest, h⟩ := bind_ok h
    obtain ⟨_, hsampling, h⟩ := bind_ok h
    cases h
    have htest := refuseIf_ok htest
    have hsampling := refuseIf_ok hsampling
    simp only [Dict.get?_upsert_self, hget, Option.getD_some, ne_eq, decide_not,
      Bool.not_eq_eq_eq_not, Bool.not_false, decide_eq_true_eq] at htest hsampling
    refine ⟨hagree.concat ?_, ?_⟩
    · intro t' ht' hsel
      obtain ⟨t₀, ht₀, hmem, hsel₀⟩ := exists_firstOf ht'
      rw [← hsel, ht₀, Option.getD_some] at htest hsampling
      obtain ⟨htest', hsampling'⟩ := hagree t' ht' t₀ hmem hsel₀.symm
      exact ⟨htest'.trans htest, hsampling'.trans hsampling⟩
    · intro i
      rw [firstOf_concat, Dict.get?_upsert, hget]
      by_cases hi : t.selectorIndex = i
      · rw [if_pos hi.symm, if_pos hi, hi]
      · rw [if_neg (Ne.symm hi), if_neg hi, hget]

theorem SelectorsAgree.sublist (h : SelectorsAgree targets) (hsub : ∀ t ∈ targets', t ∈ targets) :
    SelectorsAgree targets' := fun t ht t' ht' => h t (hsub t ht) t' (hsub t' ht')

theorem exists_representatives (h : SelectorsAgree targets) : ∃ d, representatives targets = .ok d := by
  induction targets using List.reverseRecOn with
  | nil => exact ⟨Dict.empty, rfl⟩
  | append_singleton targets t ih =>
    obtain ⟨d, hd⟩ := ih (h.sublist fun t' => List.mem_append_left [t])
    have hprior : ((d.get? t.selectorIndex).getD t).unit.testId = t.unit.testId ∧
        ((d.get? t.selectorIndex).getD t).sampling = t.sampling := by
      rw [(representatives_ok hd).2]
      cases hfirst : firstOf targets t.selectorIndex with
      | none => exact ⟨rfl, rfl⟩
      | some t' =>
        obtain ⟨hmem, hsel⟩ := firstOf_eq_some hfirst
        exact h t' (List.mem_append_left [t] hmem) t (by simp) hsel
    refine ⟨d.upsert t.selectorIndex fun old => old.getD t, ?_⟩
    rw [representatives] at hd ⊢
    rw [List.foldlM_append, hd, ok_bind]
    simp [refuseIf, hprior]

/-! ### The order of the selectors -/

def selectorScore (targets : List CatalogWorkUnit) (i : ℕ) : String :=
  ((firstOf targets i).map sampleScore).getD ""

def selectorsOf (targets : List CatalogWorkUnit) : List ℕ := (targets.map selectorIndex).dedup

def rankedSelectors (targets : List CatalogWorkUnit) : List ℕ :=
  sortOn (fun i => toLex (selectorScore targets i, i)) (selectorsOf targets)

@[simp] theorem mem_selectorsOf {i : ℕ} :
    i ∈ selectorsOf targets ↔ ∃ t ∈ targets, t.selectorIndex = i := by
  simp [selectorsOf]

@[simp] theorem mem_rankedSelectors {i : ℕ} :
    i ∈ rankedSelectors targets ↔ ∃ t ∈ targets, t.selectorIndex = i := by
  simp [rankedSelectors]

theorem rankedSelectors_increasing :
    IncreasingBy (fun i => toLex (selectorScore targets i, i)) (rankedSelectors targets) := by
  refine sortOn_increasing ?_
  refine (List.nodup_dedup _).map fun i j hij => ?_
  exact (Prod.ext_iff.mp hij).2

theorem rankedSelectors_nodup : (rankedSelectors targets).Nodup :=
  List.Nodup.of_map _ rankedSelectors_increasing.nodup

/-- Two entries with the same selectors and the same scores rank them alike. -/
theorem rankedSelectors_congr (hsel : ∀ i, i ∈ selectorsOf targets ↔ i ∈ selectorsOf targets')
    (hscore : ∀ i ∈ selectorsOf targets, selectorScore targets i = selectorScore targets' i) :
    rankedSelectors targets = rankedSelectors targets' := by
  apply eq_of_increasing rankedSelectors_increasing
  · have hincreasing : IncreasingBy (fun i => toLex (selectorScore targets' i, i)) (rankedSelectors targets') :=
      rankedSelectors_increasing
    refine List.Pairwise.imp_of_mem ?_ hincreasing
    intro i j hi hj hij
    have hi : i ∈ selectorsOf targets := (hsel i).mpr (by simpa using hi)
    have hj : j ∈ selectorsOf targets := (hsel j).mpr (by simpa using hj)
    simpa only [hscore i hi, hscore j hj] using hij
  · intro i
    simpa using hsel i

/-- The ranks of the code are the places in that order. -/
theorem selectorRanks_eq (h : SelectorsAgree targets) :
    selectorRanks targets = .ok (rankedSelectors targets) := by
  obtain ⟨d, hd⟩ := exists_representatives h
  have hget := (representatives_ok hd).2
  have hentry : ∀ e ∈ d.entries, firstOf targets e.1 = some e.2 := by
    intro e he
    rw [← hget, Dict.get?_eq_some_iff]
    exact he
  have hkeys : d.values.map selectorIndex = d.keys := by
    rw [Dict.values, Dict.keys, List.map_map]
    exact List.map_congr_left fun e he => (firstOf_eq_some (hentry e he)).2
  have hscore : ∀ t ∈ d.values, selectorScore targets t.selectorIndex = sampleScore t := by
    intro t ht
    obtain ⟨e, he, rfl⟩ := List.mem_map.mp ht
    rw [(firstOf_eq_some (hentry e he)).2, selectorScore, hentry e he]
    rfl
  have hnodup : (d.values.map fun t => toLex (sampleScore t, t.selectorIndex)).Nodup := by
    refine List.Nodup.of_map (fun p => (ofLex p).2) ?_
    rw [List.map_map]
    exact hkeys ▸ d.keys_nodup
  rw [selectorRanks, hd, ok_bind]
  refine congrArg Except.ok ?_
  refine eq_of_increasing ?_ rankedSelectors_increasing fun i => ?_
  · rw [IncreasingBy, List.pairwise_map]
    refine List.Pairwise.imp_of_mem ?_ (sortOn_increasing hnodup)
    intro t t' ht ht' hlt
    rw [mem_sortOn] at ht ht'
    rwa [hscore t ht, hscore t' ht']
  · rw [((sortOn_perm _ d.values).map selectorIndex).mem_iff, hkeys, mem_rankedSelectors,
      Dict.mem_keys_iff]
    constructor
    · rintro ⟨t, ht⟩
      exact ⟨t, firstOf_eq_some (hget i ▸ ht)⟩
    · rintro ⟨t, ht, rfl⟩
      obtain ⟨t', ht', -⟩ := exists_firstOf ht
      exact ⟨t', (hget _).trans ht'⟩

/-! ### One entry -/

structure Sampleable (targets : List CatalogWorkUnit) : Prop where
  nonempty : targets ≠ []
  sampling : ∀ t ∈ targets, ∀ t' ∈ targets, t.sampling = t'.sampling
  agree : SelectorsAgree targets

def limitOf (targets : List CatalogWorkUnit) : Option ℕ :=
  targets.head?.bind fun t => t.sampling.maxSelected

theorem sampling_dedup_length :
    (targets.map CatalogWorkUnit.sampling).dedup.length = 1 ↔
      targets ≠ [] ∧ ∀ t ∈ targets, ∀ t' ∈ targets, t.sampling = t'.sampling := by
  rw [List.length_eq_one_iff]
  constructor
  · rintro ⟨p, hp⟩
    have hall : ∀ t ∈ targets, t.sampling = p := by
      intro t ht
      have hmem : t.sampling ∈ (targets.map CatalogWorkUnit.sampling).dedup :=
        List.mem_dedup.mpr (List.mem_map.mpr ⟨t, ht, rfl⟩)
      rwa [hp, List.mem_singleton] at hmem
    refine ⟨?_, fun t ht t' ht' => (hall t ht).trans (hall t' ht').symm⟩
    rintro rfl
    simp at hp
  · rintro ⟨hne, hall⟩
    obtain ⟨t, rest, rfl⟩ := List.exists_cons_of_ne_nil hne
    refine ⟨t.sampling, ?_⟩
    refine (List.perm_singleton.mp ?_)
    rw [List.perm_ext_iff_of_nodup (List.nodup_dedup _) (List.nodup_singleton _)]
    intro p
    simp only [List.mem_dedup, List.mem_map, List.mem_singleton]
    constructor
    · rintro ⟨t', ht', rfl⟩
      exact hall t' ht' t List.mem_cons_self
    · rintro rfl
      exact ⟨t, List.mem_cons_self, rfl⟩

theorem Sampleable.limit (h : Sampleable targets) (ht : t ∈ targets) :
    limitOf targets = t.sampling.maxSelected := by
  obtain ⟨t', rest, rfl⟩ := List.exists_cons_of_ne_nil h.nonempty
  rw [h.sampling t ht t' List.mem_cons_self]
  rfl

variable {decisions : List SamplingDecision}

/-- An entry is decided about exactly if it can be sampled. -/
theorem sampleEntry_ok :
    sampleEntry targets = .ok decisions ↔ Sampleable targets ∧
      decisions = (byUnitId targets).map
        (samplingDecision (rankedSelectors targets) (limitOf targets)) := by
  constructor
  · intro h
    obtain ⟨_, hpolicy, h⟩ := bind_ok h
    obtain ⟨ranks, hranks, h⟩ := bind_ok h
    cases h
    obtain ⟨d, hd, -⟩ := bind_ok hranks
    have hagree := (representatives_ok hd).1
    rw [selectorRanks_eq hagree] at hranks
    cases hranks
    have hpolicy := refuseIf_ok hpolicy
    obtain ⟨hne, hall⟩ := sampling_dedup_length.mp (by simpa using hpolicy)
    exact ⟨⟨hne, hall, hagree⟩, rfl⟩
  · rintro ⟨hs, rfl⟩
    have hone := sampling_dedup_length.mpr ⟨hs.nonempty, hs.sampling⟩
    rw [sampleEntry, selectorRanks_eq hs.agree, ok_bind]
    simp [refuseIf, hone, limitOf]

theorem Sampleable.perm (h : Sampleable targets) (hperm : targets'.Perm targets) : Sampleable targets' where
  nonempty := fun hnil => h.nonempty (List.nil_perm.mp (hnil ▸ hperm))
  sampling := fun t ht t' ht' => h.sampling t (hperm.mem_iff.mp ht) t' (hperm.mem_iff.mp ht')
  agree := h.agree.sublist fun _ => hperm.mem_iff.mp

/-! ### The entries of a catalog -/

def entryOf (targets : List CatalogWorkUnit) (e : String) : List CatalogWorkUnit :=
  targets.filter fun t => t.entryId = e

/-- What `plan_catalog_sampling` accepts. -/
structure SamplingAccepted (targets : List CatalogWorkUnit) (revision : String) : Prop where
  named : blank revision = false
  ofRevision : ∀ t ∈ targets, t.catalogRevision = revision
  unitIds : (targets.map CatalogWorkUnit.unitId).Nodup
  entries : ∀ e ∈ targets.map CatalogWorkUnit.entryId, Sampleable (entryOf targets e)

def entryDecisions (targets : List CatalogWorkUnit) (e : String) : List SamplingDecision :=
  (byUnitId (entryOf targets e)).map
    (samplingDecision (rankedSelectors (entryOf targets e)) (limitOf (entryOf targets e)))

/-- The code's grouping of the units, entry by entry. -/
theorem collect_entries (targets : List CatalogWorkUnit) :
    (∀ e, ((Dict.collect (targets.map fun t => (t.entryId, t))).get? e).getD [] = entryOf targets e) ∧
      sortOn id (Dict.collect (targets.map fun t => (t.entryId, t))).keys =
        sortOn id (targets.map CatalogWorkUnit.entryId).dedup := by
  constructor
  · intro e
    rw [Dict.getD_collect, List.filter_map, List.map_map]
    exact List.map_id _
  · refine sortOn_congr ?_ (by simpa using Dict.keys_nodup _)
    rw [List.perm_ext_iff_of_nodup (Dict.keys_nodup _) (List.nodup_dedup _)]
    intro e
    rw [Dict.mem_keys_iff, List.mem_dedup]
    simp [Dict.get?_eq_some_iff, Dict.mem_collect]

variable {revision : String}

theorem planCatalogSampling_ok :
    planCatalogSampling targets revision = .ok decisions ↔ SamplingAccepted targets revision ∧
      decisions = (sortOn id (targets.map CatalogWorkUnit.entryId).dedup).flatMap
        (entryDecisions targets) := by
  obtain ⟨hgroup, hkeys⟩ := collect_entries targets
  have hentries : ∀ e, e ∈ sortOn id (targets.map CatalogWorkUnit.entryId).dedup ↔
      e ∈ targets.map CatalogWorkUnit.entryId := by simp
  constructor
  · intro h
    obtain ⟨_, hblank, h⟩ := bind_ok h
    obtain ⟨_, hrevision, h⟩ := bind_ok h
    obtain ⟨_, hdup, h⟩ := bind_ok h
    obtain ⟨lists, hlists, h⟩ := bind_ok h
    cases h
    simp only [hkeys, hgroup] at hlists
    have hread := mapM_ok.mp hlists
    have hrevision := refuseIf_ok hrevision
    refine ⟨⟨refuseIf_ok hblank, by simpa using hrevision,
      nodup_of_not_duplicate (refuseIf_ok hdup), ?_⟩, ?_⟩
    · intro e he
      obtain ⟨ds, -, hds⟩ := forall₂_mem_right hread.flip ((hentries e).mpr he)
      exact (sampleEntry_ok.mp hds).1
    · rw [List.flatMap_def]
      congr 1
      rw [← List.forall₂_eq_eq_eq, List.forall₂_map_right_iff]
      exact (hread.imp fun e ds hds => (sampleEntry_ok.mp hds).2).flip
  · rintro ⟨h, rfl⟩
    have hread : (sortOn id (targets.map CatalogWorkUnit.entryId).dedup).mapM
        (fun e => sampleEntry (entryOf targets e)) =
          .ok ((sortOn id (targets.map CatalogWorkUnit.entryId).dedup).map (entryDecisions targets)) := by
      rw [mapM_ok, List.forall₂_map_right_iff, List.forall₂_same]
      intro e he
      exact sampleEntry_ok.mpr ⟨h.entries e ((hentries e).mp he), rfl⟩
    have hrevision : (targets.any fun t => t.catalogRevision ≠ revision) = false := by
      simpa using h.ofRevision
    have hdup : duplicateUnits targets = false := by simp [duplicateUnits, h.unitIds]
    rw [planCatalogSampling, h.named, hrevision, hdup]
    simp only [hkeys, hgroup, hread, refuseIf, ok_bind, List.flatMap_def]
    rfl

theorem sampling_accepted (h : planCatalogSampling targets revision = .ok decisions) :
    SamplingAccepted targets revision :=
  (planCatalogSampling_ok.mp h).1

/-! ### Other orders, other limits -/

theorem SamplingAccepted.perm (h : SamplingAccepted targets revision)
    (hperm : targets'.Perm targets) :
    SamplingAccepted targets' revision where
  named := h.named
  ofRevision := fun t ht => h.ofRevision t (hperm.mem_iff.mp ht)
  unitIds := (hperm.map _).nodup_iff.mpr h.unitIds
  entries := fun e he =>
    (h.entries e ((hperm.map _).mem_iff.mp he)).perm (hperm.filter _)

/-- Within an entry of a catalog a unit's score tells the score of its selector. -/
theorem selectorScore_eq (h : SamplingAccepted targets revision) (ht : t ∈ targets) :
    selectorScore (entryOf targets t.entryId) t.selectorIndex = sampleScore t := by
  have hmem : t ∈ entryOf targets t.entryId := List.mem_filter.mpr ⟨ht, by simp⟩
  have hs := h.entries t.entryId (List.mem_map.mpr ⟨t, ht, rfl⟩)
  obtain ⟨t', hfirst, ht', hsel⟩ := exists_firstOf hmem
  obtain ⟨hin, hentry⟩ := List.mem_filter.mp ht'
  obtain ⟨htest, hsampling⟩ := hs.agree t' ht' t hmem hsel
  rw [selectorScore, hfirst, Option.map_some, Option.getD_some, sampleScore, sampleScore,
    h.ofRevision t ht, h.ofRevision t' hin, of_decide_eq_true hentry, hsel, htest, hsampling]

/-- Two catalogs rank the selectors of an entry alike if these have the same scores in both. -/
theorem rankedSelectors_entryOf {revision e : String} (h : SamplingAccepted targets revision)
    (h' : SamplingAccepted targets' revision)
    (hto : ∀ t ∈ entryOf targets e, ∃ t' ∈ entryOf targets' e,
      t'.selectorIndex = t.selectorIndex ∧ sampleScore t' = sampleScore t)
    (hback : ∀ t' ∈ entryOf targets' e, ∃ t ∈ entryOf targets e, t.selectorIndex = t'.selectorIndex) :
    rankedSelectors (entryOf targets e) = rankedSelectors (entryOf targets' e) := by
  have hentry : ∀ {targets t}, t ∈ entryOf targets e → t ∈ targets ∧ t.entryId = e := by
    simp [entryOf]
  refine rankedSelectors_congr (fun i => ?_) fun i hi => ?_
  · simp only [mem_selectorsOf]
    constructor
    · rintro ⟨t, ht, rfl⟩
      obtain ⟨t', ht', hsel, -⟩ := hto t ht
      exact ⟨t', ht', hsel⟩
    · rintro ⟨t', ht', rfl⟩
      exact hback t' ht'
  · obtain ⟨t, ht, rfl⟩ := mem_selectorsOf.mp hi
    obtain ⟨t', ht', hsel, hscore⟩ := hto t ht
    obtain ⟨hmem, rfl⟩ := hentry ht
    obtain ⟨hmem', he⟩ := hentry ht'
    rw [selectorScore_eq h hmem, ← hsel, ← he, selectorScore_eq h' hmem', hscore]

theorem entryDecisions_perm (h : SamplingAccepted targets revision) (hperm : targets'.Perm targets)
    {e : String} (he : e ∈ targets.map CatalogWorkUnit.entryId) :
    entryDecisions targets' e = entryDecisions targets e := by
  have h' := h.perm hperm
  have hentry : (entryOf targets' e).Perm (entryOf targets e) := hperm.filter _
  have hranks : rankedSelectors (entryOf targets' e) = rankedSelectors (entryOf targets e) :=
    rankedSelectors_entryOf h' h (fun t ht => ⟨t, hentry.mem_iff.mp ht, rfl, rfl⟩)
      fun t ht => ⟨t, hentry.mem_iff.mpr ht, rfl⟩
  have hs := h.entries e he
  obtain ⟨t, rest, ht⟩ := List.exists_cons_of_ne_nil hs.nonempty
  have hmem : t ∈ entryOf targets e := ht ▸ List.mem_cons_self
  have hlimit : limitOf (entryOf targets' e) = limitOf (entryOf targets e) := by
    rw [hs.limit hmem, (hs.perm hentry).limit (hentry.mem_iff.mpr hmem)]
  have hunits : byUnitId (entryOf targets' e) = byUnitId (entryOf targets e) :=
    sortOn_congr hentry (h'.unitIds.sublist (List.filter_sublist.map _))
  rw [entryDecisions, entryDecisions, hranks, hlimit, hunits]

variable (h : planCatalogSampling targets revision = .ok decisions)

include h in
/-- The order of the units does not matter. -/
theorem planCatalogSampling_perm (hperm : targets'.Perm targets) :
    planCatalogSampling targets' revision = .ok decisions := by
  obtain ⟨haccepted, rfl⟩ := planCatalogSampling_ok.mp h
  refine planCatalogSampling_ok.mpr ⟨haccepted.perm hperm, ?_⟩
  have hids : (targets'.map CatalogWorkUnit.entryId).dedup.Perm
      (targets.map CatalogWorkUnit.entryId).dedup := (hperm.map _).dedup
  rw [sortOn_congr hids (by simpa using List.nodup_dedup _)]
  refine List.flatMap_congr fun e he => ?_
  exact (entryDecisions_perm haccepted hperm (by simpa using he)).symm

/-! ### What is selected -/

def decisionOf (targets : List CatalogWorkUnit) (t : CatalogWorkUnit) : SamplingDecision :=
  samplingDecision (rankedSelectors (entryOf targets t.entryId)) t.sampling.maxSelected t

include h in
theorem mem_decisions {d : SamplingDecision} :
    d ∈ decisions ↔ ∃ t ∈ targets, d = decisionOf targets t := by
  obtain ⟨haccepted, rfl⟩ := planCatalogSampling_ok.mp h
  have hone : ∀ t ∈ targets, decisionOf targets t =
      samplingDecision (rankedSelectors (entryOf targets t.entryId)) (limitOf (entryOf targets t.entryId)) t := by
    intro t ht
    rw [(haccepted.entries t.entryId (List.mem_map.mpr ⟨t, ht, rfl⟩)).limit
      (List.mem_filter.mpr ⟨ht, by simp⟩), decisionOf]
  simp only [List.mem_flatMap, mem_sortOn, List.mem_dedup, entryDecisions, byUnitId, List.mem_map]
  constructor
  · rintro ⟨e, -, t, ht, rfl⟩
    obtain ⟨hmem, he⟩ := List.mem_filter.mp ht
    obtain rfl := of_decide_eq_true he
    exact ⟨t, hmem, (hone t hmem).symm⟩
  · rintro ⟨t, ht, rfl⟩
    exact ⟨t.entryId, ⟨t, ht, rfl⟩, t, List.mem_filter.mpr ⟨ht, by simp⟩, (hone t ht).symm⟩

@[simp] theorem decisionOf_target : (decisionOf targets t).target = t := rfl

theorem decisionOf_selected :
    (decisionOf targets t).disposition = .selected ↔
      ∀ n, t.sampling.maxSelected = some n →
        (rankedSelectors (entryOf targets t.entryId)).idxOf t.selectorIndex < n := by
  cases h : t.sampling.maxSelected <;> simp [decisionOf, samplingDecision, h]

def selectedSelectors (decisions : List SamplingDecision) (e : String) : List ℕ :=
  selectorsOf (entryOf (sampledTargets decisions) e)

include h in
theorem mem_sampledTargets_iff :
    t ∈ sampledTargets decisions ↔ t ∈ targets ∧ (decisionOf targets t).disposition = .selected := by
  simp only [sampledTargets, List.mem_map, List.mem_filter, mem_decisions h, decide_eq_true_eq]
  constructor
  · rintro ⟨_, ⟨⟨t', ht', rfl⟩, hd⟩, rfl⟩
    exact ⟨ht', hd⟩
  · rintro ⟨ht, hd⟩
    exact ⟨_, ⟨⟨t, ht, rfl⟩, hd⟩, rfl⟩

include h in
/-- The first selectors of an entry up to its limit. -/
theorem mem_selectedSelectors (ht : t ∈ targets) {i : ℕ} :
    i ∈ selectedSelectors decisions t.entryId ↔ i ∈ t.sampling.maxSelected.elim
      (rankedSelectors (entryOf targets t.entryId))
      fun n => (rankedSelectors (entryOf targets t.entryId)).take n := by
  have hs := (sampling_accepted h).entries t.entryId (List.mem_map.mpr ⟨t, ht, rfl⟩)
  have hmem : t ∈ entryOf targets t.entryId := List.mem_filter.mpr ⟨ht, by simp⟩
  have hiff : i ∈ selectedSelectors decisions t.entryId ↔
      i ∈ rankedSelectors (entryOf targets t.entryId) ∧ ∀ n, t.sampling.maxSelected = some n →
        (rankedSelectors (entryOf targets t.entryId)).idxOf i < n := by
    simp only [selectedSelectors, mem_selectorsOf, mem_rankedSelectors, entryOf, List.mem_filter,
      decide_eq_true_eq, mem_sampledTargets_iff h, decisionOf_selected]
    constructor
    · rintro ⟨t', ⟨⟨ht', hsel⟩, he⟩, rfl⟩
      rw [he, hs.sampling t' (List.mem_filter.mpr ⟨ht', by simpa using he⟩) t hmem] at hsel
      exact ⟨⟨t', ⟨ht', he⟩, rfl⟩, hsel⟩
    · rintro ⟨⟨t', ⟨ht', he⟩, rfl⟩, hsel⟩
      refine ⟨t', ⟨⟨ht', ?_⟩, he⟩, rfl⟩
      rw [he, hs.sampling t' (List.mem_filter.mpr ⟨ht', by simpa using he⟩) t hmem]
      exact hsel
  rw [hiff]
  cases t.sampling.maxSelected with
  | none => simp
  | some n =>
    simp only [Option.some.injEq, forall_eq', Option.elim_some]
    constructor
    · rintro ⟨hi, hlt⟩
      exact (List.mem_take_iff_idxOf_lt hi).mpr hlt
    · intro hi
      have hin := List.mem_of_mem_take hi
      exact ⟨hin, (List.mem_take_iff_idxOf_lt hin).mp hi⟩

include h in
/-- As many selectors as the limit allows are selected. -/
theorem selectedSelectors_length (ht : t ∈ targets) :
    (selectedSelectors decisions t.entryId).length =
      t.sampling.maxSelected.elim (selectorsOf (entryOf targets t.entryId)).length
        (min · (selectorsOf (entryOf targets t.entryId)).length) := by
  have hperm : (selectedSelectors decisions t.entryId).Perm (t.sampling.maxSelected.elim
      (rankedSelectors (entryOf targets t.entryId))
      fun n => (rankedSelectors (entryOf targets t.entryId)).take n) := by
    refine (List.perm_ext_iff_of_nodup (List.nodup_dedup _) ?_).mpr fun i => mem_selectedSelectors h ht
    cases t.sampling.maxSelected with
    | none => exact rankedSelectors_nodup
    | some n => exact rankedSelectors_nodup.sublist (List.take_sublist n _)
  rw [hperm.length_eq]
  cases t.sampling.maxSelected with
  | none => simp [rankedSelectors]
  | some n => simp [rankedSelectors]

/-! ### Raised limits -/

def withLimit (n : Option ℕ) (t : CatalogWorkUnit) : CatalogWorkUnit :=
  { t with sampling := { t.sampling with maxSelected := n } }

def NoLower (old new : Option ℕ) : Prop := ∀ n, new = some n → ∃ m, old = some m ∧ m ≤ n

/-- The entry has the same units, in any order, under the limit `n`, which is no lower. -/
def EntryRaised (n : Option ℕ) (targets targets' : List CatalogWorkUnit) (e : String) : Prop :=
  (∀ t ∈ entryOf targets e, NoLower t.sampling.maxSelected n) ∧
    (entryOf targets' e).Perm ((entryOf targets e).map (withLimit n))

/-- Whatever happens to the other entries, what was selected stays selected. -/
theorem selected_of_raised {revision e : String} {decisions decisions' : List SamplingDecision}
    (h : planCatalogSampling targets revision = .ok decisions)
    (h' : planCatalogSampling targets' revision = .ok decisions') {n : Option ℕ}
    (hraised : EntryRaised n targets targets' e) (ht : t ∈ sampledTargets decisions) (he : t.entryId = e) :
    withLimit n t ∈ sampledTargets decisions' := by
  obtain ⟨hmem, hselected⟩ := (mem_sampledTargets_iff h).mp ht
  obtain ⟨hlimit, hunits⟩ := hraised
  subst he
  have hin : t ∈ entryOf targets t.entryId := List.mem_filter.mpr ⟨hmem, by simp⟩
  have hin' : withLimit n t ∈ entryOf targets' t.entryId := hunits.mem_iff.mpr (List.mem_map_of_mem hin)
  have hranks : rankedSelectors (entryOf targets t.entryId) = rankedSelectors (entryOf targets' t.entryId) := by
    refine rankedSelectors_entryOf (sampling_accepted h) (sampling_accepted h')
      (fun u hu => ⟨withLimit n u, hunits.mem_iff.mpr (List.mem_map_of_mem hu), rfl, rfl⟩) fun u' hu' => ?_
    obtain ⟨u, hu, rfl⟩ := List.mem_map.mp (hunits.mem_iff.mp hu')
    exact ⟨u, hu, rfl⟩
  refine (mem_sampledTargets_iff h').mpr ⟨(List.mem_filter.mp hin').1, decisionOf_selected.mpr ?_⟩
  intro m hm
  obtain ⟨old, hold, hle⟩ := hlimit t hin m hm
  have hlt := decisionOf_selected.mp hselected old hold
  rw [hranks] at hlt
  exact lt_of_lt_of_le hlt hle

/-- Units of other entries change nothing. -/
theorem selected_of_others {revision e : String} {decisions decisions' : List SamplingDecision}
    (h : planCatalogSampling targets revision = .ok decisions) {others : List CatalogWorkUnit}
    (h' : planCatalogSampling (targets ++ others) revision = .ok decisions')
    (hothers : ∀ u ∈ others, u.entryId ≠ e) (ht : t ∈ sampledTargets decisions) (he : t.entryId = e) :
    t ∈ sampledTargets decisions' := by
  have hmem := ((mem_sampledTargets_iff h).mp ht).1
  have hin : t ∈ entryOf targets e := List.mem_filter.mpr ⟨hmem, by simpa using he⟩
  have hs := (sampling_accepted h).entries e (List.mem_map.mpr ⟨t, hmem, he⟩)
  have hsame : ∀ u ∈ entryOf targets e, withLimit t.sampling.maxSelected u = u := by
    intro u hu
    rw [withLimit, hs.sampling t hin u hu]
  have hentry : entryOf (targets ++ others) e = (entryOf targets e).map (withLimit t.sampling.maxSelected) := by
    have hnone : others.filter (fun u => u.entryId = e) = [] := by simpa using hothers
    rw [List.map_congr_left hsame, List.map_id', entryOf, List.filter_append, hnone, List.append_nil]
    rfl
  have hraised : EntryRaised t.sampling.maxSelected targets (targets ++ others) e := by
    refine ⟨fun u hu n hn => ⟨n, ?_, le_rfl⟩, hentry ▸ List.Perm.refl _⟩
    rwa [← hs.sampling t hin u hu]
  exact hsame t hin ▸ selected_of_raised h h' hraised ht he

/-- Sampling does not depend on the order of the units. It decides once about each, alike about all
units of a selector, selects as many selectors of an entry as its limit allows, and keeps what it
selected under a limit that is no lower and with any other entries. -/
theorem catalog_sampling_fair {targets : List CatalogWorkUnit} {revision : String}
    {decisions : List SamplingDecision} (h : planCatalogSampling targets revision = .ok decisions) :
    (∀ targets', targets'.Perm targets → planCatalogSampling targets' revision = .ok decisions) ∧
      (targets.map CatalogWorkUnit.unitId).Nodup ∧
      (decisions.map SamplingDecision.target).Perm targets ∧
      (∀ d ∈ decisions, ∀ d' ∈ decisions, d.target.entryId = d'.target.entryId →
        d.target.selectorIndex = d'.target.selectorIndex → d.disposition = d'.disposition) ∧
      (∀ t ∈ targets, (selectedSelectors decisions t.entryId).length =
        t.sampling.maxSelected.elim (selectorsOf (entryOf targets t.entryId)).length
          (min · (selectorsOf (entryOf targets t.entryId)).length)) ∧
      (∀ targets' decisions', planCatalogSampling targets' revision = .ok decisions' →
        ∀ e n, EntryRaised n targets targets' e →
          ∀ t ∈ sampledTargets decisions, t.entryId = e → withLimit n t ∈ sampledTargets decisions') ∧
      ∀ others decisions', planCatalogSampling (targets ++ others) revision = .ok decisions' →
        ∀ t ∈ sampledTargets decisions, (∀ u ∈ others, u.entryId ≠ t.entryId) →
          t ∈ sampledTargets decisions' := by
  obtain ⟨hids, htargets⟩ := planCatalogSampling_targets h
  refine ⟨fun targets' => planCatalogSampling_perm h, hids, htargets, ?_, fun t => selectedSelectors_length h,
    ?_, ?_⟩
  · intro d hd d' hd' he hsel
    obtain ⟨t, ht, rfl⟩ := (mem_decisions h).mp hd
    obtain ⟨t', ht', rfl⟩ := (mem_decisions h).mp hd'
    simp only [decisionOf_target] at he hsel
    have hs := (sampling_accepted h).entries t.entryId (List.mem_map.mpr ⟨t, ht, rfl⟩)
    have hpolicy := hs.sampling t (List.mem_filter.mpr ⟨ht, by simp⟩) t'
      (List.mem_filter.mpr ⟨ht', by simp [he]⟩)
    simp only [decisionOf, samplingDecision, he, hsel, hpolicy]
  · intro targets' decisions' h' e n hraised t ht he
    exact selected_of_raised h h' hraised ht he
  · intro others decisions' h' t ht hothers
    exact selected_of_others h h' hothers ht rfl

def archUnit (selectorIndex : ℕ) (architecture : String) : CatalogWorkUnit where
  catalogRevision := "r"
  entryId := "e"
  selectorIndex := selectorIndex
  kernelFilters := []
  sampling := ⟨some 1, "default"⟩
  cadenceDays := 1
  estimatedGpuSeconds := 60
  unit := ⟨"u:" ++ architecture, ["python"], "w", "t", "", architecture, "r", none, none, [], []⟩
  enabled := true

def archUnits : List CatalogWorkUnit := [archUnit 0 "sm_100", archUnit 0 "sm_90", archUnit 1 "sm_80"]

theorem archUnits_accepted : SamplingAccepted archUnits "r" where
  named := rfl
  ofRevision := by simp [archUnits, archUnit]
  unitIds := by decide
  entries := by
    have hentry : entryOf archUnits "e" = archUnits := rfl
    intro e he
    obtain rfl : e = "e" := by simpa [archUnits, archUnit] using he
    rw [hentry]
    exact ⟨List.cons_ne_nil _ _, by simp [archUnits, archUnit], by simp [SelectorsAgree, archUnits, archUnit]⟩

/-- One of the selectors is sampled out, whatever the order of the units. -/
theorem catalog_sampling_fair_two : ∃ decisions, planCatalogSampling archUnits "r" = .ok decisions ∧
    planCatalogSampling archUnits.reverse "r" = .ok decisions ∧
      (selectedSelectors decisions "e").length = 1 := by
  have hplan := planCatalogSampling_ok.mpr ⟨archUnits_accepted, rfl⟩
  obtain ⟨horder, -, -, -, hcount, -⟩ := catalog_sampling_fair hplan
  exact ⟨_, hplan, horder _ (List.reverse_perm _), (hcount (archUnit 0 "sm_100") List.mem_cons_self).trans rfl⟩

end CuTracer.Service
