import CuTracer.Library.Rearrange
import CuTracer.Plan.FixedPoint
import Mathlib.Algebra.Group.Action.Prod

/-! The meaning of a plan does not depend on its presentation. Rearrangements of a
document read alike at every level, since what is collected there depends on the facts
alone, and records read like the one document that they were split from. -/

namespace CuTracer.Plan

open Json (Shape Short)

variable {v : Vendor} {a b : Json}

/-! ### What may be rearranged -/

def observationShape : Shape :=
  .fields fun key => if key = "registers" then .items .exact else .exact

def pointShape : Shape :=
  .fields fun key => if key = "observations" then .items observationShape else .exact

def launchesShape : Shape :=
  .fields fun key => if key = "indices" then .items .exact else .exact

def captureShape : Shape := .fields fun _ => .items .exact

def configShape : Shape :=
  .fields fun key =>
    if key = "requests" then .items .exact
    else if key = "launches" then launchesShape
    else if key = "capture" then captureShape
    else if key = "points" then .items pointShape
    else .exact

def kernelShape : Shape :=
  .fields fun key => if key = "configs" then .repeats configShape else .exact

def documentShape : Shape :=
  .fields fun key =>
    if key = "kernels" then .items kernelShape
    else if key = "kernel" then kernelShape
    else .exact

/-! ### Checks of rearranged values -/

section Checks

variable {f : String → Shape} {s : Shape}

theorem contains_rel (h : (Shape.fields f).Rel a b) (key : String) :
    contains a key = contains b key := by
  rcases h with rfl | ⟨fs, gs, rfl, rfl, h⟩
  · rfl
  · rcases Shape.field h key with ⟨hfs, hgs⟩ | ⟨w, w', hfs, hgs, -⟩
    · rw [contains, contains, hfs, hgs]
    · rw [contains, contains, hfs, hgs]
      rfl

theorem keys_rel (h : (Shape.fields f).Rel a b) (expected : List String) :
    keys a expected = keys b expected := by
  have hcontains := contains_rel h
  rcases h with rfl | ⟨fs, gs, rfl, rfl, h⟩
  · rfl
  · simp only [contains] at hcontains
    simp only [keys, hcontains, h.length_eq]

theorem member_rel (h : (Shape.fields f).Rel a b) (key : String) :
    Coupled (f key).Rel (member a key) (member b key) := by
  rcases h with rfl | ⟨fs, gs, rfl, rfl, h⟩
  · exact .same fun w _ => (f key).refl w
  · rcases Shape.field h key with ⟨hfs, -⟩ | ⟨w, w', hfs, hgs, hw⟩
    · simp only [member, hfs]
      exact .error _
    · simp only [member, hfs, hgs]
      exact .ok hw

theorem array_rel (h : (Shape.items s).Rel a b) (maximum : ℕ) :
    Coupled (Shuffled s.Rel) (array a maximum) (array b maximum) := by
  rcases h with rfl | ⟨xs, ys, rfl, rfl, h⟩
  · exact .same fun xs _ => .of_forall₂ (List.forall₂_same.mpr fun x _ => s.refl x)
  · intro zs hzs
    obtain ⟨hxs, hne, hlen⟩ := array_ok.mp hzs
    cases hxs
    refine ⟨ys, array_ok.mpr ⟨rfl, ?_, h.length_eq ▸ hlen⟩, h⟩
    rw [← List.length_pos_iff, ← h.length_eq]
    exact List.length_pos_iff.mpr hne

theorem sortedArray_rel {α : Type} [LinearOrder α] (read : Json → Except PlanError α)
    (h : (Shape.items .exact).Rel a b) : Coupled Eq (sortedArray read a) (sortedArray read b) := by
  have hread : ∀ x y : Json, Shape.exact.Rel x y → Coupled Eq (read x) (read y) := by
    rintro x y rfl
    exact .same fun _ _ => rfl
  refine (array_rel h _).bind fun xs ys hxs => ?_
  refine (hxs.mapM hread).bind fun us ws hus r hr => ?_
  obtain ⟨hnodup, rfl⟩ := uniqueSort_ok.mp hr
  have hperm := Shuffled.eq_iff.mp hus
  exact ⟨_, uniqueSort_ok.mpr ⟨hperm.nodup_iff.mp hnodup, rfl⟩,
    sortOn_congr hperm (by simpa using hnodup)⟩

theorem member_exact (h : (Shape.fields f).Rel a b) {key : String} (hf : f key = .exact) :
    Coupled Eq (member a key) (member b key) := by
  have hmember := member_rel h key
  rwa [hf] at hmember

theorem eq_rfl {α : Type} {x : Except PlanError α} : Coupled Eq x x := .same fun _ _ => rfl

/-- Such a field is read alike, and so is what is read after it. -/
theorem reads_exact {α β γ : Type} (h : (Shape.fields f).Rel a b) {key : String} (hf : f key = .exact)
    {read : Json → Except PlanError α} {g : α → Except PlanError β} {g' : α → Except PlanError γ}
    {R : β → γ → Prop} (hg : ∀ x, Coupled R (g x) (g' x)) :
    Coupled R (member a key >>= fun w => read w >>= g) (member b key >>= fun w => read w >>= g') :=
  (member_exact h hf).bind fun _ _ hw => hw ▸ eq_rfl.bind fun x _ hx => hx ▸ hg x

end Checks

/-! ### Observations and points -/

theorem registers_rel {xs ys : List Json} (h : Shuffled Shape.exact.Rel xs ys) :
    Coupled (fun rs ts => sortOn Register.name rs = sortOn Register.name ts)
      (xs.foldlM emplaceRegister []) (ys.foldlM emplaceRegister []) := by
  intro rs hrs
  obtain ⟨hread, hnodup⟩ := registers_ok.mp hrs
  obtain ⟨ts, hts, hrsts⟩ := h.exists_forall₂ (S := Eq) (Q := fun j r => reg j = .ok r)
    (fun x y r (hxy : x = y) hr => ⟨r, hxy ▸ hr, rfl⟩) hread
  have hperm := Shuffled.eq_iff.mp hrsts
  exact ⟨ts, registers_ok.mpr ⟨hts, (hperm.map _).nodup_iff.mp hnodup⟩, sortOn_congr hperm hnodup⟩

theorem observation_rel (h : observationShape.Rel a b) :
    Coupled Eq (observation a) (observation b) := by
  unfold observation
  rw [contains_rel h]
  split
  · exact .error _
  refine reads_exact h (if_neg (by decide)) fun kind => ?_
  simp only [keys_rel h]
  by_cases hregs : kind = "reg_trace"
  · simp only [if_pos hregs]
    refine eq_rfl.bind fun _ _ _ => ?_
    refine (member_rel h "registers").bind fun w w' hw => ?_
    refine (array_rel hw 512).bind fun xs ys hxs => ?_
    refine (registers_rel hxs).bind fun rs ts hrs => ?_
    rw [hrs]
    exact eq_rfl
  simp only [if_neg hregs]
  by_cases hmem : kind = "mem_addr_trace" ∨ kind = "mem_value_trace"
  · simp only [if_pos hmem]
    refine eq_rfl.bind fun _ _ _ => ?_
    refine (member_exact h (if_neg (by decide))).bind ?_
    rintro w _ rfl
    exact eq_rfl
  simp only [if_neg hmem]
  by_cases hdelay : kind = "random_delay"
  · simp only [if_pos hdelay]
    refine eq_rfl.bind fun _ _ _ => ?_
    refine (member_exact h (if_neg (by decide))).bind ?_
    rintro w _ rfl
    exact eq_rfl
  · simp only [if_neg hdelay]
    exact eq_rfl

/-- Observations merge alike in any order. -/
theorem mergeObservations_congr (hv : v.Lawful) {xs ys : List Observation}
    (hxs : ∀ o ∈ xs, o.Good) (h : xs.Perm ys) :
    Coupled Eq (mergeObservations v [] xs) (mergeObservations v [] ys) := by
  have hys : ∀ o ∈ ys, o.Good := fun o ho => hxs o (h.mem_iff.mpr ho)
  have hfacts : observationsFacts xs = observationsFacts ys := factsOf_perm h
  intro m hm
  have hfits := (accumulates_observations (v := v)).step_iff merged_nil hxs |>.mp ⟨m, hm⟩
  rw [hfacts] at hfits
  obtain ⟨n, hn⟩ := ((accumulates_observations (v := v)).step_iff merged_nil hys).mpr hfits
  have hm' := ((accumulates_observations (v := v)).step_ok merged_nil hxs hm).2
  have hn' := ((accumulates_observations (v := v)).step_ok merged_nil hys hn).2
  refine ⟨n, hn, (isObservations_merge hv merged_nil hxs hm).eq_of_facts
    (isObservations_merge hv merged_nil hys hn) ?_⟩
  rw [hm', hn', hfacts]

theorem point_rel (hv : v.Lawful) (h : pointShape.Rel a b) :
    Coupled Eq (point v a) (point v b) := by
  have hobservation : ∀ x y, observationShape.Rel x y →
      Coupled (fun o o' => o = o' ∧ o.Good) (observation x) (observation y) := by
    intro x y hxy o ho
    obtain ⟨o', ho', rfl⟩ := observation_rel hxy o ho
    exact ⟨o, ho', rfl, good_observation ho⟩
  unfold point
  simp only [keys_rel h]
  refine eq_rfl.bind fun _ _ _ => ?_
  refine reads_exact h (if_neg (by decide)) fun function => ?_
  refine reads_exact h (if_neg (by decide)) fun pc => ?_
  refine reads_exact h (if_neg (by decide)) fun bytes => ?_
  split
  · exact .error _
  refine reads_exact h (if_neg (by decide)) fun phase => ?_
  split
  · exact .error _
  refine reads_exact h (if_neg (by decide)) fun predicate => ?_
  split
  · exact .error _
  refine (member_rel h "observations").bind fun w w' hw => ?_
  refine (array_rel hw _).bind fun xs ys hxs => ?_
  refine (hxs.mapM hobservation).bind fun os os' hos => ?_
  have hgood : ∀ o ∈ os, o.Good := fun o ho => by
    obtain ⟨o', -, -, hgood⟩ := hos.sameItems.1 o ho
    exact hgood
  have hperm : os.Perm os' := Shuffled.eq_iff.mp (hos.imp fun _ _ h => h.1)
  refine (mergeObservations_congr hv hgood hperm).bind ?_
  rintro m _ rfl
  exact eq_rfl

/-! ### Configurations -/

theorem selection_rel {α : Type} [LinearOrder α] (read : Json → Except PlanError α)
    (h : (Shape.items .exact).Rel a b) :
    Coupled Eq (selection (sortedArray read) a) (selection (sortedArray read) b) := by
  have hsorted := sortedArray_rel read h
  rcases h with rfl | ⟨xs, ys, rfl, rfl, h⟩
  · exact eq_rfl
  · exact hsorted

theorem captureSelector_rel (h : captureShape.Rel a b) :
    Coupled Eq (captureSelector a) (captureSelector b) := by
  unfold captureSelector
  rw [keys_rel h]
  refine eq_rfl.bind fun _ _ _ => ?_
  refine (member_rel h "ctas").bind fun w w' hw => ?_
  refine (selection_rel cta hw).bind ?_
  rintro ctas _ rfl
  refine (member_rel h "warps").bind fun w w' hw => ?_
  refine (selection_rel _ hw).bind ?_
  rintro warps _ rfl
  refine (member_rel h "lanes").bind fun w w' hw => ?_
  refine (selection_rel _ hw).bind ?_
  rintro lanes _ rfl
  exact eq_rfl

theorem launchSelector_rel (h : launchesShape.Rel a b) :
    Coupled Eq (launchSelector a) (launchSelector b) := by
  unfold launchSelector
  rw [contains_rel h]
  split
  · exact .error _
  refine reads_exact h (if_neg (by decide)) fun mode => ?_
  simp only [keys_rel h]
  split
  · exact eq_rfl
  split
  · refine eq_rfl.bind fun _ _ _ => ?_
    refine (member_rel h "indices").bind fun w w' hw => ?_
    refine (sortedArray_rel _ hw).bind ?_
    rintro ordinals _ rfl
    exact eq_rfl
  · exact .error _

theorem configFields_rel (h : configShape.Rel a b) :
    Coupled Eq (configFields a) (configFields b) := by
  unfold configFields
  rw [keys_rel h]
  refine eq_rfl.bind fun _ _ _ => ?_
  refine (member_exact h rfl).bind ?_
  rintro w _ rfl
  refine eq_rfl.bind ?_
  rintro id _ rfl
  refine (member_rel h "requests").bind fun w w' hw => ?_
  refine (sortedArray_rel text hw).bind ?_
  rintro requests _ rfl
  refine (member_rel h "launches").bind fun w w' hw => ?_
  refine (launchSelector_rel hw).bind ?_
  rintro launches _ rfl
  refine (member_rel h "capture").bind fun w w' hw => ?_
  refine (captureSelector_rel hw).bind ?_
  rintro capture _ rfl
  refine (member_exact h rfl).bind ?_
  rintro w _ rfl
  refine eq_rfl.bind ?_
  rintro budget _ rfl
  exact eq_rfl

/-- Points are collected alike in any order. -/
theorem collectPoints_congr (hv : v.Lawful) {ps qs : List Point} (hps : ∀ p ∈ ps, p.Good v)
    (h : ps.Perm qs) : Coupled (fun rs ts => sortOn Point.key rs = sortOn Point.key ts)
      (collectPoints v [] ps) (collectPoints v [] qs) := by
  apply (accumulates_points hv).foldlM_congr _ (collected_nil _ _) _ hps
    (fun q hq => hps q (h.mem_iff.mpr hq)) (factsOf_perm h)
  · intro s t hs ht hinfo
    refine sortOn_congr ?_ hs.nodup
    exact hs.perm_of_keyed ht (fun p _ => p.facts_nonempty)
      (fun _ _ hx hy => hx.eq_of_facts hy) hinfo
  · intro k
    rw [at_keyed_of_ne fun _ hp => by cases hp]
    exact (joins_point hv).empty k

theorem readConfig_rel (hv : v.Lawful) (h : configShape.Rel a b) :
    Coupled Eq (readConfig v a) (readConfig v b) := by
  have hpoint : ∀ x y, pointShape.Rel x y →
      Coupled (fun p p' => p = p' ∧ p.Good v) (point v x) (point v y) := by
    intro x y hxy p hp
    obtain ⟨p', hp', rfl⟩ := point_rel hv hxy p hp
    exact ⟨p, hp', rfl, good_point hv hp⟩
  intro c hc
  obtain ⟨result, w, items, ps, qs, hresult, hw, hitems, hps, hqs, rfl⟩ := readConfig_ok.mp hc
  obtain ⟨result', hresult', rfl⟩ := configFields_rel h result hresult
  obtain ⟨w', hw', hww'⟩ := member_rel h "points" w hw
  obtain ⟨items', hitems', hitem⟩ := array_rel hww' _ items hitems
  obtain ⟨ps', hps', hpsps'⟩ := hitem.mapM hpoint ps hps
  have hgood : ∀ p ∈ ps, p.Good v := fun p hp => by
    obtain ⟨p', -, -, hgood⟩ := hpsps'.sameItems.1 p hp
    exact hgood
  have hperm : ps.Perm ps' := Shuffled.eq_iff.mp (hpsps'.imp fun _ _ h => h.1)
  obtain ⟨qs', hqs', hsort⟩ := collectPoints_congr hv hgood hperm qs hqs
  exact ⟨_, readConfig_ok.mpr ⟨result, w', items', ps', qs', hresult', hw', hitems', hps', hqs',
    rfl⟩, by rw [hsort]⟩

/-! ### Kernels -/

theorem kernelFields_rel (h : kernelShape.Rel a b) :
    Coupled Eq (kernelFields a) (kernelFields b) := by
  unfold kernelFields
  rw [keys_rel h]
  refine eq_rfl.bind fun _ _ _ => ?_
  refine (member_exact h rfl).bind ?_
  rintro w _ rfl
  refine eq_rfl.bind fun _ _ _ => ?_
  refine (member_exact h rfl).bind ?_
  rintro found _ rfl
  exact eq_rfl

def SameKernel (k l : Kernel) : Prop := k.key = l.key ∧ k.Has = l.Has

/-- A kernel with its configurations in another order, some of them repeated. -/
theorem readsKernel_rel (hv : v.Lawful) (h : kernelShape.Rel a b)
    (hlen : (itemsAt b "configs").length ≤ kConfigsMax) {k : Kernel} (hk : ReadsKernel v a k) :
    ∃ l, ReadsKernel v b l ∧ SameKernel k l := by
  obtain ⟨result, w, items, cs, hresult, hw, hitems, hcs, rfl⟩ := hk
  obtain ⟨_, hresult', rfl⟩ := kernelFields_rel h result hresult
  obtain ⟨w', hw', hrel⟩ := member_rel h "configs" w hw
  have hread : ∀ x y, configShape.Rel x y → Coupled Eq (readConfig v x) (readConfig v y) :=
    fun x y => readConfig_rel hv
  rcases hrel with rfl | ⟨xs, ys, rfl, rfl, hxs⟩
  · exact ⟨_, ⟨result, w, items, cs, hresult', hw', hitems, hcs, rfl⟩, rfl, rfl⟩
  obtain ⟨harr, hne, -⟩ := array_ok.mp hitems
  cases harr
  have hys : ys ≠ [] := by
    obtain ⟨x, hx⟩ := List.exists_mem_of_ne_nil _ hne
    obtain ⟨y, hy, -⟩ := hxs.1 x hx
    exact List.ne_nil_of_mem hy
  have hat : itemsAt b "configs" = ys := by
    obtain ⟨fields, rfl, hfield⟩ := member_ok hw'
    simp [itemsAt, hfield]
  rw [hat] at hlen
  obtain ⟨ds, hds, hsame⟩ := hxs.mapM hread cs (mapM_ok.mpr hcs)
  refine ⟨_, ⟨result, _, ys, ds, hresult', hw', array_ok.mpr ⟨rfl, hys, hlen⟩, mapM_ok.mp hds, rfl⟩,
    rfl, ?_⟩
  ext c
  constructor
  · intro hc
    obtain ⟨d, hd, rfl⟩ := hsame.1 c hc
    exact hd
  · intro hd
    obtain ⟨d, hc, rfl⟩ := hsame.2 c hd
    exact hc

theorem content_congr {ks ls : List Kernel} (h : Shuffled SameKernel ks ls) :
    content ks = content ls := by
  have hitems := h.sameItems
  ext p
  rw [mem_content, mem_content]
  constructor
  · rintro ⟨k, hk, hkey, hc⟩
    obtain ⟨l, hl, hsame, hhas⟩ := hitems.1 k hk
    exact ⟨l, hl, hkey.trans hsame, (Set.ext_iff.mp hhas p.2).mp hc⟩
  · rintro ⟨l, hl, hkey, hc⟩
    obtain ⟨k, hk, hsame, hhas⟩ := hitems.2 l hl
    exact ⟨k, hk, hkey.trans hsame.symm, (Set.ext_iff.mp hhas p.2).mpr hc⟩

/-! ### Documents -/

/-- Presentations of one plan: the documents of a file may be rearranged, and one document
split into records or records joined to one document. -/
inductive Presents : List Json → List Json → Prop
  | rearranged {docs docs' : List Json} (h : Shuffled documentShape.Rel docs docs') :
      Presents docs docs'
  | split {id policy : Json} {kernels kernels' : List Json}
      (h : Shuffled kernelShape.Rel kernels kernels') :
      Presents [planDocument id policy kernels] (kernels'.map (planRecord id policy))
  | joined {id policy : Json} {kernels kernels' : List Json}
      (h : Shuffled kernelShape.Rel kernels kernels') :
      Presents (kernels.map (planRecord id policy)) [planDocument id policy kernels']

theorem Presents.symm {docs docs' : List Json} (h : Presents docs docs') : Presents docs' docs := by
  cases h with
  | rearranged h => exact .rearranged (h.symm fun _ _ => documentShape.symm)
  | split h => exact .joined (h.symm fun _ _ => kernelShape.symm)
  | joined h => exact .split (h.symm fun _ _ => kernelShape.symm)

def documentItems (doc : Json) : List Json :=
  itemsAt doc "kernels" ++ match member doc "kernel" with
    | .ok k => [k]
    | .error _ => []

/-- The limits on the kernels, configurations and points of a file. -/
structure InLimits (docs : List Json) : Prop where
  kernels : (docs.flatMap documentItems).length ≤ kKernelsMax
  counts : Counts.Within ((docs.flatMap documentItems).map kernelCount).sum

/-- An object has no field beside the expected ones. -/
theorem mem_of_keys {j w : Json} {expected : List String} (hkeys : keys j expected = .ok ())
    (hnodup : expected.Nodup) {key : String} (h : member j key = .ok w) : key ∈ expected := by
  obtain ⟨fields, rfl, hlen, hall⟩ := keys_ok hkeys
  obtain ⟨_, heq, hfield⟩ := member_ok h
  cases heq
  have hsub : expected.Subperm (fields.map Prod.fst) := List.subperm_of_subset hnodup hall
  have hperm := hsub.perm_of_length_le (by rw [List.length_map, hlen])
  exact hperm.mem_iff.mpr (List.mem_map_of_mem (f := Prod.fst) (mem_of_field hfield))

variable {n : ℕ}

/-- The kernels that are loaded are those in the JSON. -/
theorem documentKernels_items {doc : Json} {items : List Json}
    (h : documentKernels n doc = .ok items) : items = documentItems doc := by
  unfold documentKernels at h
  split at h
  · exact absurd h fail_ne
  obtain ⟨schemaJson, -, h⟩ := bind_ok h
  obtain ⟨schema, -, h⟩ := bind_ok h
  split at h
  · obtain ⟨_, hkeys, h⟩ := bind_ok h
    split at h
    · exact absurd h fail_ne
    obtain ⟨w, hw, h⟩ := bind_ok h
    have hkernel : ∀ k, member doc "kernel" ≠ .ok k := fun k hk =>
      absurd (mem_of_keys hkeys (by decide) hk) (by decide)
    rw [documentItems, itemsAt_of_member hw h]
    split
    · next k hk => exact absurd hk (hkernel k)
    · rw [List.append_nil]
  split at h
  · obtain ⟨_, hkeys, h⟩ := bind_ok h
    obtain ⟨k, hk, h⟩ := bind_ok h
    cases h
    have hnone : itemsAt doc "kernels" = [] := by
      obtain ⟨fields, rfl, -⟩ := keys_ok hkeys
      have hkernels : ∀ w, member (.obj fields) "kernels" ≠ .ok w := fun w hw =>
        absurd (mem_of_keys hkeys (by decide) hw) (by decide)
      cases hfield : Json.field fields "kernels" with
      | none => simp [itemsAt, hfield]
      | some w => exact absurd (by simp [member, hfield]) (hkernels w)
    rw [documentItems, hnone, hk]
    rfl
  · exact absurd h fail_ne

variable {id : String}

theorem areDocuments_items {header : Json} {docs items : List Json}
    (h : AreDocuments n id header docs items) : items = docs.flatMap documentItems := by
  obtain ⟨parts, hparts, rfl⟩ := h
  induction hparts with
  | nil => rfl
  | cons hdoc _ ih =>
    rw [List.flatten_cons, List.flatMap_cons, ← ih, ← documentKernels_items hdoc.kernels]

theorem documentKernels_rel (h : documentShape.Rel a b) (n : ℕ) :
    Coupled (Shuffled kernelShape.Rel) (documentKernels n a) (documentKernels n b) := by
  unfold documentKernels
  rw [contains_rel h]
  split
  · exact .error _
  refine (member_exact h rfl).bind ?_
  rintro w _ rfl
  refine eq_rfl.bind ?_
  rintro schema _ rfl
  simp only [keys_rel h]
  split
  · refine eq_rfl.bind fun _ _ _ => ?_
    split
    · exact .error _
    · refine (member_rel h "kernels").bind fun w w' hw => ?_
      exact array_rel hw _
  split
  · refine eq_rfl.bind fun _ _ _ => ?_
    refine (member_rel h "kernel").bind fun w w' hw => ?_
    exact .ok (.of_forall₂ (.cons hw .nil))
  · exact .error _

theorem isDocument_rel {header : Json} {part : List Json} (h : documentShape.Rel a b)
    (hdoc : IsDocument n id header a part) :
    ∃ part', IsDocument n id header b part' ∧ Shuffled kernelShape.Rel part part' := by
  obtain ⟨part', hpart', hrel⟩ := documentKernels_rel h n part hdoc.kernels
  obtain ⟨w, hw, hid⟩ := hdoc.id
  have hplan : Coupled Eq (member a "plan_id") (member b "plan_id") := member_exact h rfl
  have hpolicy : Coupled Eq (member a "policy") (member b "policy") := member_exact h rfl
  obtain ⟨_, hw', rfl⟩ := hplan w hw
  obtain ⟨_, hheader, rfl⟩ := hpolicy header hdoc.header
  exact ⟨part', ⟨hpart', ⟨w, hw', hid⟩, hheader⟩, hrel⟩

/-- What a document says of the identifier and the policy. -/
theorem header_of_isDocument {doc header idJson policy : Json} {part : List Json}
    (hid : member doc "plan_id" = .ok idJson) (hpolicy : member doc "policy" = .ok policy)
    (h : IsDocument n id header doc part) : text idJson = .ok id ∧ header = policy := by
  obtain ⟨w, hw, hid'⟩ := h.id
  have hheader := h.header
  rw [hid] at hw
  rw [hpolicy] at hheader
  exact ⟨Except.ok.inj hw ▸ hid', (Except.ok.inj hheader).symm⟩

theorem header_planDocument {header idJson policy : Json} {kernels part : List Json}
    (h : IsDocument n id header (planDocument idJson policy kernels) part) :
    text idJson = .ok id ∧ header = policy := by
  apply header_of_isDocument _ _ h
  · simp only [planDocument, member_obj_cons, String.reduceEq, if_true, if_false]
  · simp only [planDocument, member_obj_cons, String.reduceEq, if_true, if_false]

theorem header_planRecord {header idJson policy kernel : Json} {part : List Json}
    (h : IsDocument n id header (planRecord idJson policy kernel) part) :
    text idJson = .ok id ∧ header = policy := by
  apply header_of_isDocument _ _ h
  · simp only [planRecord, member_obj_cons, String.reduceEq, if_true, if_false]
  · simp only [planRecord, member_obj_cons, String.reduceEq, if_true, if_false]

theorem documentItems_planDocument (id policy : Json) (kernels : List Json) :
    documentItems (planDocument id policy kernels) = kernels := by
  simp [documentItems, planDocument, itemsAt, member, Json.field, Dict.lookup, fail]

theorem documentItems_planRecord (id policy kernel : Json) :
    documentItems (planRecord id policy kernel) = [kernel] := by
  simp [documentItems, planRecord, itemsAt, member, Json.field, Dict.lookup]

theorem documentItems_records (id policy : Json) (kernels : List Json) :
    (kernels.map (planRecord id policy)).flatMap documentItems = kernels := by
  simp [List.flatMap_map, documentItems_planRecord]

theorem areDocuments_records {idJson policy : Json} {kernels : List Json}
    (hid : text idJson = .ok id) :
    AreDocuments n id policy (kernels.map (planRecord idJson policy)) kernels := by
  refine ⟨kernels.map fun k => [k], ?_, ?_⟩
  · induction kernels with
    | nil => exact .nil
    | cons k ks ih => exact .cons (isDocument_planRecord hid) ih
  · induction kernels with
    | nil => rfl
    | cons k ks ih => rw [List.map_cons, List.flatten_cons, ← ih, List.singleton_append]

/-- The documents of one plan in another presentation. -/
theorem areDocuments_presents {docs docs' : List Json} (h : Presents docs docs') (hne : docs ≠ [])
    (hlimits : InLimits docs') {header : Json} {items : List Json}
    (hdocs : AreDocuments docs.length id header docs items) :
    ∃ items', AreDocuments docs'.length id header docs' items' ∧
      Shuffled kernelShape.Rel items items' := by
  cases h with
  | rearranged h =>
    obtain ⟨parts, hparts, rfl⟩ := hdocs
    obtain ⟨parts', hparts', hrel⟩ := h.exists_forall₂ (P := IsDocument docs.length id header)
      (fun x y part hxy hpart => isDocument_rel hxy hpart) hparts
    exact ⟨parts'.flatten, ⟨parts', h.length_eq ▸ hparts', rfl⟩, hrel.flatten⟩
  | @split idJson policy kernels kernels' h =>
    have hitems := areDocuments_items hdocs
    rw [List.flatMap_singleton, documentItems_planDocument] at hitems
    obtain ⟨parts, hparts, -⟩ := hdocs
    cases hparts with
    | cons hdoc _ =>
      obtain ⟨hid, rfl⟩ := header_planDocument hdoc
      exact ⟨kernels', areDocuments_records hid, hitems ▸ h⟩
  | @joined idJson policy kernels kernels' h =>
    have hitems := areDocuments_items hdocs
    rw [documentItems_records] at hitems
    have hkernels : kernels ≠ [] := fun hnil => hne (by rw [hnil]; rfl)
    have hkernels' : kernels' ≠ [] := by
      rw [← List.length_pos_iff, ← h.length_eq]
      exact List.length_pos_iff.mpr hkernels
    have hlen := hlimits.kernels
    rw [List.flatMap_singleton, documentItems_planDocument] at hlen
    obtain ⟨parts, hparts, -⟩ := hdocs
    obtain ⟨k, ks, rfl⟩ := List.exists_cons_of_ne_nil hkernels
    cases hparts with
    | cons hdoc _ =>
      obtain ⟨hid, rfl⟩ := header_planRecord hdoc
      exact ⟨kernels', ⟨[kernels'], .cons (isDocument_planDocument hid hkernels' hlen) .nil,
        by simp⟩, hitems ▸ h⟩

/-! ### Plans -/

theorem kernelCount_fst (j : Json) : (kernelCount j).1 = (itemsAt j "configs").length := by
  rw [kernelCount]
  induction itemsAt j "configs" with
  | nil => rfl
  | cons i items ih =>
    rw [List.map_cons, List.sum_cons, Prod.fst_add, ih, List.length_cons, configCount]
    omega

/-- Kernels in another presentation, within the limits. -/
theorem readsKernels_rel (hv : v.Lawful) {items items' : List Json} {ks : List Kernel}
    (h : Shuffled kernelShape.Rel items items')
    (hwithin : Counts.Within (items'.map kernelCount).sum)
    (hks : List.Forall₂ (ReadsKernel v) items ks) :
    ∃ ls, List.Forall₂ (ReadsKernel v) items' ls ∧ content ks = content ls := by
  have hlen : ∀ j ∈ items', (itemsAt j "configs").length ≤ kConfigsMax := by
    intro j hj
    have hle : kernelCount j ≤ (items'.map kernelCount).sum :=
      List.single_le_sum (fun _ _ => Prod.le_def.mpr ⟨Nat.zero_le _, Nat.zero_le _⟩) _
        (List.mem_map_of_mem hj)
    rw [← kernelCount_fst]
    exact hle.1.trans hwithin.1
  obtain ⟨ls, hls, hsame⟩ := h.with_mem.exists_forall₂ (P := ReadsKernel v) (Q := ReadsKernel v)
    (fun x y k hxy hk => readsKernel_rel hv hxy.1 (hlen y hxy.2) hk) hks
  exact ⟨ls, hls, content_congr hsame⟩

/-- Another presentation within the limits is loaded as the same plan. -/
theorem loadDocuments_presents (hv : v.Lawful) {docs docs' : List Json} (h : Presents docs docs')
    (hne : docs ≠ []) (hne' : docs' ≠ []) (hlimits : InLimits docs') {loaded : Loading}
    {rs : List Kernel} (hload : loadDocuments v docs = .ok (loaded, rs)) :
    ∃ loaded', loadDocuments v docs' = .ok (loaded', rs) ∧ loaded'.id = loaded.id ∧
      loaded'.header = loaded.header ∧ loaded'.policy = loaded.policy := by
  obtain ⟨hloaded, hrs, items, hitems, hks, -⟩ := (loadDocuments_iff hne).mp hload
  obtain ⟨items', hitems', hrel⟩ := areDocuments_presents h hne hlimits hitems
  have hwithin := hlimits.counts
  rw [← areDocuments_items hitems'] at hwithin
  obtain ⟨ls, hls, hcontent⟩ := readsKernels_rel hv hrel hwithin hks
  have hgood : ∀ {is : List Json} {ks : List Kernel}, List.Forall₂ (ReadsKernel v) is ks →
      ∀ k ∈ ks, k.Good v := fun hread k hk => by
    obtain ⟨item, -, hitem⟩ := forall₂_mem_right hread hk
    exact good_kernel hv hitem
  obtain ⟨_, hrs', rfl⟩ := normalize_congr (hgood hks) (hgood hls) hcontent rs hrs
  exact ⟨⟨loaded.id, loaded.header, loaded.policy, ls, (items'.map kernelCount).sum⟩,
    (loadDocuments_iff hne').mpr ⟨⟨hloaded.id, hloaded.policy, hwithin⟩, hrs', items', hitems', hls,
      rfl⟩, rfl, rfl, rfl⟩

structure IsFile (bytes : List UInt8) : Prop where
  ne : bytes ≠ []
  size : bytes.length ≤ kFileBytesMax
  no_nul : 0 ∉ bytes

theorem parse_ok {bytes : List UInt8} {p : CanonicalPlan} :
    parse v bytes = .ok p ↔ IsFile bytes ∧ ∃ docs loaded ks, documents v bytes = .ok docs ∧
      loadDocuments v docs = .ok (loaded, ks) ∧
        p = ⟨loaded.id, loaded.policy, ks, canonicalJson loaded.id loaded.header ks,
          v.hash256HexString (utf8 (v.dump true (canonicalJson loaded.id loaded.header ks))),
          v.hash256HexString bytes⟩ := by
  constructor
  · intro h
    unfold parse at h
    split at h
    · exact absurd h fail_ne
    next hbytes =>
    split at h
    · exact absurd h fail_ne
    next hnul =>
    push Not at hbytes
    obtain ⟨docs, hdocs, h⟩ := bind_ok h
    obtain ⟨⟨loaded, ks⟩, hload, h⟩ := bind_ok h
    exact ⟨⟨hbytes.1, hbytes.2, hnul⟩, docs, loaded, ks, hdocs, hload, (Except.ok.inj h).symm⟩
  · rintro ⟨hfile, docs, loaded, ks, hdocs, hload, rfl⟩
    have hbytes : ¬(bytes = [] ∨ kFileBytesMax < bytes.length) :=
      not_or.mpr ⟨hfile.ne, Nat.not_lt.mpr hfile.size⟩
    rw [parse, if_neg hbytes, if_neg hfile.no_nul, hdocs, ok_bind, hload, ok_bind]
    rfl

structure SamePlan (p q : CanonicalPlan) : Prop where
  id : p.id = q.id
  policy : p.policy = q.policy
  kernels : p.kernels = q.kernels
  canonical : p.canonical = q.canonical
  canonicalSha256 : p.canonicalSha256 = q.canonicalSha256

theorem parse_presents_coupled (hv : v.Lawful) {bytes bytes' : List UInt8} {docs docs' : List Json}
    (hdocs : documents v bytes = .ok docs) (hdocs' : documents v bytes' = .ok docs')
    (h : Presents docs docs') (hfile : IsFile bytes') (hlimits : InLimits docs') :
    Coupled SamePlan (parse v bytes) (parse v bytes') := by
  intro p hp
  obtain ⟨-, ds, loaded, ks, hds, hload, rfl⟩ := parse_ok.mp hp
  rw [hdocs] at hds
  cases hds
  obtain ⟨loaded', hload', hid, hheader, hpolicy⟩ :=
    loadDocuments_presents hv h (documents_ok hdocs).1 (documents_ok hdocs').1 hlimits hload
  refine ⟨_, parse_ok.mpr ⟨hfile, docs', loaded', ks, hdocs', hload', rfl⟩, ?_⟩
  simp only [hid, hheader, hpolicy]
  exact ⟨rfl, rfl, rfl, rfl, rfl⟩

/-- The meaning of a plan does not depend on its presentation: within the limits on files,
nodes, records and counts, one is accepted if the other is, and as the same plan. -/
theorem parse_presents (hv : v.Lawful) {bytes bytes' : List UInt8} {docs docs' : List Json}
    (hdocs : documents v bytes = .ok docs) (hdocs' : documents v bytes' = .ok docs')
    (h : Presents docs docs') (hfile : IsFile bytes) (hfile' : IsFile bytes')
    (hlimits : InLimits docs) (hlimits' : InLimits docs') :
    ((∃ p, parse v bytes = .ok p) ↔ ∃ q, parse v bytes' = .ok q) ∧
      ∀ p q, parse v bytes = .ok p → parse v bytes' = .ok q → SamePlan p q := by
  have hthere := parse_presents_coupled hv hdocs hdocs' h hfile' hlimits'
  have hback := parse_presents_coupled hv hdocs' hdocs h.symm hfile hlimits
  refine ⟨⟨?_, ?_⟩, ?_⟩
  · rintro ⟨p, hp⟩
    obtain ⟨q, hq, -⟩ := hthere p hp
    exact ⟨q, hq⟩
  · rintro ⟨q, hq⟩
    obtain ⟨p, hp, -⟩ := hback q hq
    exact ⟨p, hp⟩
  · intro p q hp hq
    obtain ⟨q', hq', hsame⟩ := hthere p hp
    rw [hq] at hq'
    exact Except.ok.inj hq' ▸ hsame

/-- The text of a document within the limits is a file of that document. -/
theorem isFile_dump (hv : v.Lawful) (ascii : Bool) {j : Json} (hj : j.Plain)
    (hsize : (v.dump ascii j).utf8ByteSize ≤ kFileBytesMax) : IsFile (utf8 (v.dump ascii j)) where
  ne hnil := hv.dump_ne ascii j hj (utf8_injective hnil)
  size := by rwa [length_utf8]
  no_nul := hv.dump_no_nul ascii j hj

theorem isFile_twoLines {j k : Json} (hj : j.Plain) (hk : k.Plain)
    (hsize : (Json.write true j).length + (Json.write true k).length < kFileBytesMax) :
    IsFile (twoLines j k) where
  ne hnil := by
    have hlen := length_twoLines hj hk
    rw [hnil] at hlen
    cases hlen
  size := by
    rw [length_twoLines hj hk]
    exact hsize
  no_nul := zero_not_mem_utf8 (by simp [Json.null_not_mem_write true hj, Json.null_not_mem_write true hk])

theorem inLimits_of_items {docs : List Json} {ks : List Kernel}
    (hitems : docs.flatMap documentItems = ks.map Kernel.toJson) (hlen : ks.length ≤ kKernelsMax)
    (hwithin : Counts.Within (ks.map Kernel.count).sum) : InLimits docs := by
  constructor
  · rwa [hitems, List.length_map]
  · rwa [hitems, sum_kernelCount_toJson]

theorem inLimits_record {p : Policy} {k : Kernel} (h : k.count.Within) :
    InLimits [recordJson id p k] :=
  @inLimits_of_items _ [k] (documentItems_records (.str id) p.toJson [k.toJson])
    (show 1 ≤ kKernelsMax by decide) (by rwa [List.map_singleton, List.sum_singleton])

def entryKernel (entry id : String) : Kernel := ⟨entry, "sm_90a", cubin, [wide id 1 1]⟩

theorem normal_entryKernel {entry id : String} (hentry : IsText entry) (hid : IsText id) :
    (entryKernel entry id).Normal v where
  good :=
    { fields := ⟨hentry, isTarget_sm_90a, isText_cubin, rfl, show hex cubin.toList = true from rfl⟩
      ne := List.cons_ne_nil _ _
      configs := by
        simpa [entryKernel] using good_wide hid (show 1 ≤ kArrayMax by decide)
          (show 1 ≤ kArrayMax by decide) }
  increasing := List.pairwise_singleton _ _

def twoKernels : List Kernel := [entryKernel "add" "a", entryKernel "mul" "b"]

theorem isKernels_twoKernels : IsKernels v twoKernels where
  normal := by
    simp only [twoKernels, List.forall_mem_cons]
    exact ⟨normal_entryKernel (isText_literal rfl (by decide)) (isText_literal rfl (by decide)),
      normal_entryKernel (isText_literal rfl (by decide)) (isText_literal rfl (by decide)), by simp⟩
  increasing := List.pairwise_pair.mpr
    (Prod.Lex.right _ (Prod.Lex.left _ _ (show "add" < "mul" by decide)))

theorem fits_twoKernels : ContentFits (content twoKernels) := by
  have hmem : ∀ a ∈ content twoKernels, a = ((entryKernel "add" "a").key, wide "a" 1 1) ∨
      a = ((entryKernel "mul" "b").key, wide "b" 1 1) := by
    rintro ⟨key, c⟩ ha
    obtain ⟨k, hk, rfl, hc⟩ := mem_content.mp ha
    simp only [twoKernels, List.mem_cons, List.not_mem_nil, or_false] at hk
    rcases hk with rfl | rfl
    · exact .inl (congrArg (Prod.mk _) (List.mem_singleton.mp hc))
    · exact .inr (congrArg (Prod.mk _) (List.mem_singleton.mp hc))
  constructor
  · intro a ha b hb _ p hp q hq _ _
    rcases hmem a ha with rfl | rfl <;> rcases hmem b hb with rfl | rfl <;>
      rw [List.mem_singleton.mp hp, List.mem_singleton.mp hq]
  · intro a ha b hb _ hid
    rcases hmem a ha with rfl | rfl <;> rcases hmem b hb with rfl | rfl
    · rfl
    · exact absurd hid (by decide)
    · exact absurd hid (by decide)
    · rfl

theorem within_twoKernels : Counts.Within (twoKernels.map Kernel.count).sum :=
  show 2 ≤ kConfigsMax ∧ 2 ≤ kPointsMax by decide

def twoDocument : Json := canonicalJson "plan" (Policy.toJson ⟨false, false⟩) twoKernels

def entryRecord (entry id : String) : Json := recordJson "plan" ⟨false, false⟩ (entryKernel entry id)

/-- A document of two kernels, and a file with a record of each in the other order. -/
theorem parse_presents_split : ∃ p q : CanonicalPlan,
    parse compact (utf8 (compact.dump true twoDocument)) = .ok p ∧
    parse compact (twoLines (entryRecord "mul" "b") (entryRecord "add" "a")) = .ok q ∧
    SamePlan p q := by
  have hks : IsKernels compact twoKernels := isKernels_twoKernels
  have hplain : twoDocument.Plain := plain_canonical "plan" ⟨false, false⟩ hks.good
  have hshallow : twoDocument.Shallow 64 := shallow_canonical "plan" ⟨false, false⟩ twoKernels
  have hsize : (compact.dump true twoDocument).utf8ByteSize ≤ kFileBytesMax := by
    rw [size_compact hplain]
    decide +kernel
  have hnodes : twoDocument.nodes ≤ kNodesMax := by decide +kernel
  have hp := parse_dump lawful_compact true hplain hshallow hsize hnodes (loadDocuments_canonicalJson
    (isText_literal rfl (by decide)) ⟨false, false⟩ hks fits_twoKernels (List.cons_ne_nil _ _) (by decide)
    within_twoKernels)
  have hrecord : ∀ k ∈ twoKernels, (recordJson "plan" ⟨false, false⟩ k).Plain := fun k hk =>
    plain_record "plan" ⟨false, false⟩ (hks.good k hk)
  have hmul : (entryRecord "mul" "b").Plain := hrecord _ (by simp [twoKernels])
  have hadd : (entryRecord "add" "a").Plain := hrecord _ (by simp [twoKernels])
  have hpresents : Presents [twoDocument] [entryRecord "mul" "b", entryRecord "add" "a"] :=
    @Presents.split _ _ (twoKernels.map Kernel.toJson) (twoKernels.reverse.map Kernel.toJson)
      ⟨_, List.Perm.swap _ _ [], List.forall₂_same.mpr fun x _ => kernelShape.refl x⟩
  have hitems : [twoDocument].flatMap documentItems = twoKernels.map Kernel.toJson :=
    (List.flatMap_singleton _ _).trans (documentItems_planDocument _ _ _)
  have hitems' : [entryRecord "mul" "b", entryRecord "add" "a"].flatMap documentItems =
      twoKernels.reverse.map Kernel.toJson :=
    documentItems_records (.str "plan") _ (twoKernels.reverse.map Kernel.toJson)
  obtain ⟨hiff, hsame⟩ := parse_presents lawful_compact
    (documents_dump lawful_compact true hplain hshallow hnodes)
    (documents_twoLines hmul hadd (shallow_record _ _ _) (shallow_record _ _ _) (by decide +kernel))
    hpresents (isFile_dump lawful_compact true hplain hsize)
    (isFile_twoLines hmul hadd (by decide +kernel))
    (inLimits_of_items hitems (by decide) within_twoKernels)
    (inLimits_of_items hitems' (by decide) within_twoKernels)
  obtain ⟨q, hq⟩ := hiff.mp ⟨_, hp⟩
  exact ⟨_, q, hp, hq, hsame _ q hp hq⟩

/-! ### Repetitions beyond the file size -/

def letters (n : ℕ) : String := String.ofList (List.replicate n 'a')

/-- A configuration with names of `n` letters. -/
def longConfig (n : ℕ) : Config :=
  ⟨letters n, [letters n], ⟨true, []⟩, ⟨[], [], []⟩, ⟨1, 1⟩,
    [opcodePoint (letters n) 0, opcodePoint (letters n) 1]⟩

/-- A record of one kernel that repeats such a configuration. -/
def repeated (n times : ℕ) : Json :=
  recordJson "plan" ⟨false, false⟩ (oneKernel (List.replicate times (longConfig n)))

theorem repeated_one (n : ℕ) :
    repeated n 1 = recordJson "plan" ⟨false, false⟩ (oneKernel [longConfig n]) := rfl

theorem isText_letters (hpos : 0 < n) (hle : n ≤ 1024) : IsText (letters n) := by
  apply isText_ofList
  · rw [← List.length_pos_iff, List.length_replicate]
    exact hpos
  · rw [List.length_replicate]
    exact hle
  · intro c hc
    obtain rfl := List.eq_of_mem_replicate hc
    decide

theorem length_letters (ascii : Bool) (n : ℕ) :
    (Json.writeString ascii (letters n)).length = n + 2 := by
  have hescape : Json.escape ascii 'a' = ['a'] := by cases ascii <;> rfl
  rw [Json.writeString, letters, String.toList_ofList, List.length_cons, List.length_append,
    List.length_flatMap, List.map_replicate, List.sum_replicate, hescape]
  simp

theorem short_letters (n : ℕ) : Short true (n + 2) (.str (letters n)) :=
  decide_eq_true (le_of_eq (length_letters true n))

theorem good_longConfig (hpos : 0 < n) (hle : n ≤ 1024) : (longConfig n).Good v where
  fields :=
    { id := isText_letters hpos hle
      requests := isSelection_singleton (isText_letters hpos hle)
      launches := .inl rfl
      capture := ⟨.inl rfl, .inl rfl, .inl rfl⟩
      budget := ⟨show 1 ≤ 1 ∧ 1 ≤ kExactIntegerMax by decide,
        show 1 ≤ 1 ∧ 1 ≤ kExactIntegerMax by decide⟩ }
  points :=
    { good := by
        simp only [longConfig, List.forall_mem_cons]
        exact ⟨good_opcodePoint (isText_letters hpos hle) (by decide),
          good_opcodePoint (isText_letters hpos hle) (by decide), by simp⟩
      increasing := by
        refine List.pairwise_pair.mpr ?_
        exact Prod.Lex.right _ (Prod.Lex.left _ _ Nat.zero_lt_one)
      ne := List.cons_ne_nil _ _
      length := show 2 ≤ kPointsMax by decide }

theorem nodes_longConfig (n : ℕ) : Json.nodes (longConfig n).toJson = 72 := rfl

theorem nodes_repeated (n times : ℕ) : Json.nodes (repeated n times) = 39 + 72 * times := by
  rw [repeated, nodes_record, nodes_oneKernel, List.map_replicate, List.sum_replicate,
    nodes_longConfig, smul_eq_mul]
  omega

theorem good_repeated {n times : ℕ} (hpos : 0 < n) (hle : n ≤ 1024) (htimes : 0 < times) :
    (oneKernel (List.replicate times (longConfig n))).Good v where
  fields := ⟨isText_literal (s := "kernel") rfl (by decide), isTarget_sm_90a, isText_cubin, rfl,
    show hex cubin.toList = true from rfl⟩
  ne := by
    show List.replicate times (longConfig n) ≠ []
    rw [← List.length_pos_iff, List.length_replicate]
    exact htimes
  configs c hc := by
    obtain rfl := List.eq_of_mem_replicate hc
    exact good_longConfig hpos hle

/-- A record says the same however often it repeats its configuration. -/
theorem presents_repeated (n : ℕ) {times times' : ℕ} (h : 0 < times) (h' : 0 < times') :
    Presents [repeated n times] [repeated n times'] := by
  have hconfigs : SameItems configShape.Rel
      ((List.replicate times (longConfig n)).map Config.toJson)
      ((List.replicate times' (longConfig n)).map Config.toJson) := by
    rw [List.map_replicate, List.map_replicate]
    constructor
    · intro x hx
      obtain rfl := List.eq_of_mem_replicate hx
      exact ⟨_, List.mem_replicate.mpr ⟨by omega, rfl⟩, configShape.refl _⟩
    · intro x hx
      obtain rfl := List.eq_of_mem_replicate hx
      exact ⟨_, List.mem_replicate.mpr ⟨by omega, rfl⟩, configShape.refl _⟩
  have hkernel : kernelShape.Rel (oneKernel (List.replicate times (longConfig n))).toJson
      (oneKernel (List.replicate times' (longConfig n))).toJson :=
    .inr ⟨_, _, rfl, rfl, .cons ⟨rfl, .inr ⟨_, _, rfl, rfl, hconfigs⟩⟩
      (.cons ⟨rfl, Shape.refl _ _⟩ (.cons ⟨rfl, Shape.refl _ _⟩ .nil))⟩
  refine .rearranged (.of_forall₂ (.cons (.inr ⟨_, _, rfl, rfl, .cons ⟨rfl, hkernel⟩ ?_⟩) .nil))
  exact .cons ⟨rfl, Shape.refl _ _⟩ (.cons ⟨rfl, Shape.refl _ _⟩ (.cons ⟨rfl, Shape.refl _ _⟩ .nil))

theorem inLimits_repeated (n : ℕ) {times : ℕ} (htimes : times ≤ kConfigsMax) :
    InLimits [repeated n times] := by
  have hcount : (oneKernel (List.replicate times (longConfig n))).count = (times, times * 2) := by
    rw [Kernel.count, oneKernel, List.map_replicate, List.sum_replicate]
    show times • ((1, 2) : Counts) = _
    rw [Prod.smul_mk, smul_eq_mul, smul_eq_mul, mul_one]
  have hpoints : times * 2 ≤ kPointsMax := le_trans (Nat.mul_le_mul_right 2 htimes) (by decide)
  apply inLimits_record
  rw [hcount]
  exact ⟨htimes, hpoints⟩

/-- Its text grows with the repetitions. -/
theorem length_repeated (n : ℕ) {times : ℕ} (htimes : 0 < times) :
    times * (4 * n) < (Json.write true (repeated n times)).length := by
  have hname : (Json.write true (.str (letters n))).length = n + 2 := length_letters true n
  have hpoint : ∀ pc, n + 2 < (Json.write true (opcodePoint (letters n) pc).toJson).length := by
    intro pc
    -- the function of a point
    refine lt_of_eq_of_lt ?_ (Json.length_fields_lt true
      (.cons _ (.cons_cons _ (List.nil_sublist _))))
    rw [List.map_cons, List.map_nil, List.sum_singleton]
    exact hname.symm
  have hconfig : 4 * n < (Json.write true (longConfig n).toJson).length := by
    -- the name, the points and the requests
    refine lt_of_le_of_lt ?_ (Json.length_fields_lt true
      (.cons _ (.cons _ (.cons_cons _ (.cons _ (.cons_cons _ (.cons_cons _ .slnil)))))))
    have h₀ := hpoint 0
    have h₁ := hpoint 1
    simp only [List.map_cons, List.map_nil, List.sum_cons, List.sum_nil, longConfig, strs,
      Json.length_write_arr _ (List.cons_ne_nil _ _), hname]
    omega
  have hconfigs : times * (4 * n) < (Json.write true
      (.arr ((List.replicate times (longConfig n)).map Config.toJson))).length := by
    have hne : (List.replicate times (longConfig n)).map Config.toJson ≠ [] := by
      rw [← List.length_pos_iff, List.length_map, List.length_replicate]
      exact htimes
    rw [Json.length_write_arr _ hne, List.map_map, List.map_replicate, List.sum_replicate,
      smul_eq_mul]
    exact Nat.lt_succ_of_le (Nat.mul_le_mul_left times (le_trans hconfig.le (Nat.le_succ _)))
  have hkernel : times * (4 * n) <
      (Json.write true (oneKernel (List.replicate times (longConfig n))).toJson).length := by
    refine lt_trans hconfigs (lt_of_eq_of_lt ?_ (Json.length_fields_lt true
      (.cons_cons _ (List.nil_sublist _))))
    rw [List.map_cons, List.map_nil, List.sum_singleton]
    rfl
  refine lt_trans hkernel (lt_of_eq_of_lt ?_ (Json.length_fields_lt true
    (.cons_cons _ (List.nil_sublist _))))
  rw [List.map_cons, List.map_nil, List.sum_singleton]

/-- With names of the greatest length every piece of its text is short. -/
theorem short_repeated (times : ℕ) : Short true 1026 (repeated 1024 times) := by
  have hname : Short true 1026 (.str (letters 1024)) := short_letters 1024
  have hpoints : Short true 1026 (.arr ([opcodePoint (letters 1024) 0,
      opcodePoint (letters 1024) 1].map Point.toJson)) := by
    refine Json.short_arr.mpr ?_
    simp only [List.map_cons, List.map_nil, List.forall_mem_cons]
    exact ⟨short_opcodePoint (by decide) hname (by decide), short_opcodePoint (by decide) hname (by decide),
      by simp⟩
  have hrequests : Short true 1026 (strs [letters 1024]) := by
    refine Json.short_arr.mpr ?_
    simp only [List.map_cons, List.map_nil, List.forall_mem_cons]
    exact ⟨hname, by simp⟩
  have hall {α : Type} (encode : List α → Json) : Short true 32 (selectionJson encode []) :=
    Json.short_text (by decide)
  have hbudget : Short true 1026 (Budget.toJson ⟨1, 1⟩) := short_budget.mono (by decide)
  have hcapture : Short true 1026 (CaptureSelector.toJson ⟨[], [], []⟩) :=
    (short_capture (hall _) (hall _) (hall _)).mono (by decide)
  have hlaunches : Short true 1026 (LaunchSelector.toJson ⟨true, []⟩) := short_launches.mono (by decide)
  have hconfig : Short true 1026 (longConfig 1024).toJson := by
    refine Json.short_obj.mpr ?_
    simp only [List.forall_mem_cons]
    exact ⟨⟨Json.length_key_le (by decide), hbudget⟩, ⟨Json.length_key_le (by decide), hcapture⟩,
      ⟨Json.length_key_le (by decide), hname⟩, ⟨Json.length_key_le (by decide), hlaunches⟩,
      ⟨Json.length_key_le (by decide), hpoints⟩, ⟨Json.length_key_le (by decide), hrequests⟩, by simp⟩
  have hconfigs : Short true 1026
      (.arr ((List.replicate times (longConfig 1024)).map Config.toJson)) := by
    refine Json.short_arr.mpr fun j hj => ?_
    rw [List.map_replicate] at hj
    obtain rfl := List.eq_of_mem_replicate hj
    exact hconfig
  have hmatch := Json.Short.mono (n := 1026) (by decide) short_match
  have hkernel : Short true 1026
      (oneKernel (List.replicate times (longConfig 1024))).toJson := by
    refine Json.short_obj.mpr ?_
    simp only [List.forall_mem_cons]
    exact ⟨⟨Json.length_key_le (by decide), hconfigs⟩, ⟨Json.length_key_le (by decide), hmatch⟩,
      ⟨Json.length_key_le (by decide), Json.short_text (by decide)⟩, by simp⟩
  have hpolicy : Short true 1026 (Policy.toJson ⟨false, false⟩) := (short_policy _).mono (by decide)
  refine Json.short_obj.mpr ?_
  simp only [List.forall_mem_cons]
  exact ⟨⟨Json.length_key_le (by decide), hkernel⟩,
    ⟨Json.length_key_le (by decide), Json.short_text (by decide)⟩,
    ⟨Json.length_key_le (by decide), hpolicy⟩,
    ⟨Json.length_key_le (by decide), Json.short_text (by decide)⟩, by simp⟩

theorem documents_repeated {times : ℕ} (hpos : 0 < times) (hle : times ≤ kConfigsMax) :
    documents compact (utf8 (compact.dump true (repeated 1024 times))) =
      .ok [repeated 1024 times] := by
  apply documents_dump lawful_compact true _ (shallow_record _ _ _)
  · have hmax : 39 + 72 * kConfigsMax ≤ kNodesMax := by decide
    show Json.nodes (repeated 1024 times) ≤ kNodesMax
    rw [nodes_repeated]
    omega
  · exact plain_record _ _ (good_repeated (v := compact) (by decide) (by decide) hpos)

theorem parse_repeated_once :
    ∃ p, parse compact (utf8 (compact.dump true (repeated 1024 1))) = .ok p := by
  have hgood := good_longConfig (v := compact) (n := 1024) (by decide) (by decide)
  have hids : IncreasingBy Config.id [longConfig 1024] := List.pairwise_singleton _ _
  have hnormal : (oneKernel [longConfig 1024]).Normal compact :=
    normal_oneKernel (List.cons_ne_nil _ _) (by simpa using hgood) hids
  have hfits : ContentFits (content [oneKernel [longConfig 1024]]) := by
    refine fits_oneKernel hids ?_
    intro c hc q hq
    obtain rfl := List.mem_singleton.mp hc
    simp only [longConfig, List.mem_cons, List.not_mem_nil, or_false] at hq
    rcases hq with rfl | rfl <;> rfl
  have hwithin : (oneKernel [longConfig 1024]).count.Within :=
    show 1 ≤ kConfigsMax ∧ 2 ≤ kPointsMax by decide
  have hnodes : Json.nodes (repeated 1024 1) ≤ kNodesMax := by
    rw [nodes_repeated]
    decide
  have hplain := plain_record "plan" ⟨false, false⟩ hnormal.good
  have hsize : (compact.dump true (repeated 1024 1)).utf8ByteSize ≤ kFileBytesMax := by
    have hlen := Json.length_write_le (by decide) (short_repeated 1)
    rw [nodes_repeated] at hlen
    have hmax : 1027 * (39 + 72 * 1) ≤ kFileBytesMax := by decide
    rw [repeated_one] at hlen ⊢
    rw [size_compact hplain]
    generalize (Json.write true _).length = size at hlen ⊢
    omega
  have hid : IsText "plan" := isText_literal rfl (by decide)
  rw [repeated_one] at hsize hnodes ⊢
  obtain ⟨q, hq, -⟩ := parse_record lawful_compact true hid ⟨false, false⟩ hnormal hfits hwithin
    hsize hnodes
  exact ⟨q, hq⟩

/-- Repetitions within the limits of the nodes and the counts make a file too large: the
record that has the configuration once is accepted, the one that repeats it is not. -/
theorem parse_presents_repeated : compact.Lawful ∧
    documents compact (utf8 (compact.dump true (repeated 1024 1))) = .ok [repeated 1024 1] ∧
    documents compact (utf8 (compact.dump true (repeated 1024 4096))) =
      .ok [repeated 1024 4096] ∧
    Presents [repeated 1024 1] [repeated 1024 4096] ∧
    InLimits [repeated 1024 1] ∧ InLimits [repeated 1024 4096] ∧
    (∃ p, parse compact (utf8 (compact.dump true (repeated 1024 1))) = .ok p) ∧
    ∀ q, parse compact (utf8 (compact.dump true (repeated 1024 4096))) ≠ .ok q := by
  have hmax : 1 ≤ kConfigsMax ∧ 4096 ≤ kConfigsMax := by decide
  refine ⟨lawful_compact, documents_repeated (by decide) hmax.1,
    documents_repeated (by decide) hmax.2, presents_repeated 1024 (by decide) (by decide),
    inLimits_repeated 1024 hmax.1, inLimits_repeated 1024 hmax.2, parse_repeated_once, ?_⟩
  intro q hq
  have hplain : (repeated 1024 4096).Plain :=
    plain_record _ _ (good_repeated (v := compact) (by decide) (by decide) (by decide))
  have hsize := (parse_ok.mp hq).1.size
  rw [length_utf8, size_compact hplain] at hsize
  have hlarge := length_repeated 1024 (show 0 < 4096 by decide)
  have hbytes : kFileBytesMax = 4096 * (4 * 1024) := rfl
  rw [hbytes] at hsize
  exact absurd hsize (Nat.not_le.mpr hlarge)

end CuTracer.Plan
